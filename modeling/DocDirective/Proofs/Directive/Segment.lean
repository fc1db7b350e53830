import DocDirective.Proofs.Directive.Scanning

/-!
# Proofs — Directive — Segment

A comment as a row of segments: it is cut, from the left, at every line feed, carriage return and
`*/` (`Cut`).  A segment with an exclamation mark in front of an identifier gives one directive, at
the first such mark, and any other segment none (`Tells`).  The scan finds exactly these directives
(`scan_segments`), though it goes over the comment only once and takes a directive together with its
arguments.
-/

namespace DocDirective.Directive

/-! ### Segments -/

/-- A stretch of a comment; `offset` counts the characters of the comment before it. -/
structure Segment where
  offset : Nat
  chars  : List Char

/-- What stands between two segments. -/
def separators : List (List Char) := [['\n'], ['\r'], ['*', '/']]

/-- No separator stands in the text. -/
def Unbroken (cs : List Char) : Prop := ∀ sep ∈ separators, ¬ sep <:+: cs

/-- The segments of a text that is cut from the left at every separator; so many characters stand
before the text. -/
inductive Cut : Nat → List Char → List Segment → Prop
  | last {offset : Nat} {cs : List Char} (h : Unbroken cs) : Cut offset cs [⟨offset, cs⟩]
  | more {offset : Nat} {cs sep rest : List Char} {ss : List Segment} (h : Unbroken cs)
      (hsep : sep ∈ separators) (tail : Cut (offset + cs.length + sep.length) rest ss) :
      Cut offset (cs ++ (sep ++ rest)) (⟨offset, cs⟩ :: ss)

/-- An exclamation mark stands in the text with the start of an identifier right behind it. -/
def Marked (cs : List Char) : Prop :=
  ∃ before c after, cs = before ++ '!' :: c :: after ∧ Text.isIdentStart c = true

/-- A segment gives a directive at its first such mark: its name is the longest identifier there,
and its arguments are the rest of the segment without the blanks at both ends. -/
inductive Segment.Gives (s : Segment) : Directive → Prop
  | intro {before name rest : List Char} (chars : s.chars = before ++ '!' :: (name ++ rest))
      (first : ¬ Marked before) (identifier : Text.isIdentifier name = true)
      (longest : ∀ c ∈ rest.head?, Text.isIdentPart c = false) :
      Gives s ⟨String.ofList name, String.ofList (Text.trim rest), s.offset + before.length⟩

/-- The directives of segments, in order: one of each segment with such a mark, and none of the
others. -/
inductive Tells : List Segment → List Directive → Prop
  | nil : Tells [] []
  | silent {s : Segment} {ss : List Segment} {ds : List Directive} (h : ¬ Marked s.chars)
      (tail : Tells ss ds) : Tells (s :: ss) ds
  | directive {s : Segment} {ss : List Segment} {d : Directive} {ds : List Directive}
      (h : s.Gives d) (tail : Tells ss ds) : Tells (s :: ss) (d :: ds)

/-! ### Separators -/

theorem unbroken_nil : Unbroken [] := by
  intro sep hsep hin
  rw [List.eq_nil_of_infix_nil hin] at hsep
  exact absurd hsep (by decide)

theorem unbroken_cons_iff {c : Char} {cs : List Char} : Unbroken (c :: cs)
    ↔ c ≠ '\n' ∧ c ≠ '\r' ∧ (c = '*' → cs.head? ≠ some '/') ∧ Unbroken cs := by
  have hstar : ['*', '/'] <+: c :: cs ↔ c = '*' ∧ cs.head? = some '/' := by
    cases cs <;> simp [List.cons_prefix_cons, eq_comm]
  simp only [Unbroken, separators, List.mem_cons, List.not_mem_nil, or_false, forall_eq_or_imp,
    forall_eq, List.infix_cons_iff, hstar, List.cons_prefix_cons, List.nil_prefix, and_true]
  tauto

/-- A text ends here, or a separator stands here. -/
inductive Ends : List Char → Prop
  | text : Ends []
  | separator {sep : List Char} (h : sep ∈ separators) (rest : List Char) : Ends (sep ++ rest)

theorem Ends.cases_head {stop : List Char} (h : Ends stop) {c : Char} (hc : c ∈ stop.head?) :
    c = '\n' ∨ c = '\r' ∨ c = '*' := by
  cases h with
  | text => cases hc
  | separator hsep rest =>
    simp only [separators, List.mem_cons, List.not_mem_nil, or_false] at hsep
    obtain rfl | rfl | rfl := hsep <;> cases hc <;> simp

theorem Ends.spanArguments_eq {stop : List Char} (h : Ends stop) :
    spanArguments stop = ([], stop) := by
  cases h with
  | text => rfl
  | separator hsep rest =>
    simp only [separators, List.mem_cons, List.not_mem_nil, or_false] at hsep
    obtain rfl | rfl | rfl := hsep <;> rfl

/-- The arguments of a directive end where its segment does. -/
theorem spanArguments_unbroken {cs stop : List Char} (h : Unbroken cs) (hstop : Ends stop) :
    spanArguments (cs ++ stop) = (cs, stop) := by
  induction cs with
  | nil => exact hstop.spanArguments_eq
  | cons c cs ih =>
    obtain ⟨hline, hreturn, hstar, h⟩ := unbroken_cons_iff.1 h
    have hslash : c = '*' → (cs ++ stop).head? ≠ some '/' := by
      intro hc
      cases cs with
      | nil =>
        intro hhead
        obtain h | h | h := hstop.cases_head (c := '/') hhead <;> exact absurd h (by decide)
      | cons d ds => exact hstar hc
    rw [List.cons_append, spanArguments_cons hline hreturn hslash, ih h]

theorem spanArguments_cut (cs : List Char) :
    Unbroken (spanArguments cs).1 ∧ Ends (spanArguments cs).2 := by
  induction cs with
  | nil => exact ⟨unbroken_nil, .text⟩
  | cons c cs ih =>
    rw [spanArguments]
    split
    · rename_i hstop
      refine ⟨unbroken_nil, ?_⟩
      simp only [Bool.or_eq_true, Bool.and_eq_true, decide_eq_true_eq] at hstop
      obtain (rfl | rfl) | ⟨rfl, hslash⟩ := hstop
      · exact .separator (by decide : ['\n'] ∈ separators) cs
      · exact .separator (by decide : ['\r'] ∈ separators) cs
      · obtain ⟨rest, rfl⟩ := List.head?_eq_some_iff.1 hslash
        exact .separator (by decide : ['*', '/'] ∈ separators) rest
    · rename_i hgo
      simp only [Bool.or_eq_true, Bool.and_eq_true, decide_eq_true_eq, not_or, not_and] at hgo
      refine ⟨unbroken_cons_iff.2 ⟨hgo.1.1, hgo.1.2, fun hc hhead => hgo.2 hc ?_, ih.1⟩, ih.2⟩
      rw [← spanArguments_append cs, List.head?_append, hhead]
      rfl

/-! ### Marks -/

theorem marked_cons_iff {c : Char} {cs : List Char} : Marked (c :: cs)
    ↔ (c = '!' ∧ ∃ d ∈ cs.head?, Text.isIdentStart d = true) ∨ Marked cs := by
  constructor
  · rintro ⟨_ | ⟨b, before⟩, d, after, heq, hd⟩
    · cases heq
      exact .inl ⟨rfl, d, rfl, hd⟩
    · cases heq
      exact .inr ⟨before, d, after, rfl, hd⟩
  · rintro (⟨rfl, d, hhead, hd⟩ | ⟨before, d, after, rfl, hd⟩)
    · obtain ⟨after, rfl⟩ := List.head?_eq_some_iff.1 hhead
      exact ⟨[], d, after, rfl, hd⟩
    · exact ⟨c :: before, d, after, rfl, hd⟩

/-- The scan passes over a text without a mark, if what follows does not make one of a last
exclamation mark. -/
theorem scanFrom_unmarked (offset : Nat) {cs rest : List Char} (h : ¬ Marked cs)
    (hrest : ∀ c ∈ rest.head?, Text.isIdentStart c = false) :
    scanFrom offset (cs ++ rest) = scanFrom (offset + cs.length) rest := by
  induction cs generalizing offset with
  | nil => rfl
  | cons c cs ih =>
    rw [marked_cons_iff, not_or] at h
    have hstep : scanFrom offset (c :: (cs ++ rest)) = scanFrom (offset + 1) (cs ++ rest) := by
      rw [scanFrom]
      split_ifs with hc
      · have hhead : ∀ d ∈ (cs ++ rest).head?, Text.isIdentStart d = false := by
          intro d hd
          cases cs with
          | nil => exact hrest d hd
          | cons e es =>
            by_contra hstart
            exact h.1 ⟨hc, d, hd, by simpa using hstart⟩
        have hspan := Text.spanIdentifier_of_head hhead
        split <;> rename_i h' <;> cases hspan.symm.trans h'
        rfl
      · rfl
    rw [List.cons_append, hstep, ih _ h.2, List.length_cons]
    congr 1
    omega

/-- A text with a mark has a first one, and its longest identifier. -/
theorem exists_first_mark {cs : List Char} (h : Marked cs) :
    ∃ before name rest, cs = before ++ '!' :: (name ++ rest) ∧ ¬ Marked before ∧
      Text.isIdentifier name = true ∧ ∀ c ∈ rest.head?, Text.isIdentPart c = false := by
  induction cs with
  | nil =>
    obtain ⟨before, c, after, heq, -⟩ := h
    simp at heq
  | cons c cs ih =>
    by_cases hfirst : c = '!' ∧ ∃ d ∈ cs.head?, Text.isIdentStart d = true
    · obtain ⟨rfl, d, hhead, hd⟩ := hfirst
      obtain ⟨after, rfl⟩ := List.head?_eq_some_iff.1 hhead
      refine ⟨[], d :: after.takeWhile Text.isIdentPart, after.dropWhile Text.isIdentPart, ?_, ?_,
        ?_, ?_⟩
      · simp
      · rintro ⟨before, e, rest, heq, -⟩
        simp at heq
      · simp [Text.isIdentifier, hd]
      · intro e he
        have hnot := List.head?_dropWhile_not Text.isIdentPart after
        rwa [Option.mem_def.1 he] at hnot
    · obtain ⟨before, name, rest, rfl, hbefore, hname, hrest⟩ :=
        ih ((marked_cons_iff.1 h).resolve_left hfirst)
      refine ⟨c :: before, name, rest, rfl, ?_, hname, hrest⟩
      rintro hmarked
      obtain ⟨rfl, d, hd, hstart⟩ := (marked_cons_iff.1 hmarked).resolve_right hbefore
      refine hfirst ⟨rfl, d, ?_, hstart⟩
      rw [List.head?_append, Option.mem_def.1 hd]
      rfl

/-! ### One segment -/

theorem Unbroken.of_isInfix {cs ds : List Char} (h : Unbroken cs) (hin : ds <:+: cs) :
    Unbroken ds :=
  fun sep hsep hds => h sep hsep (hds.trans hin)

theorem Ends.isGap_head {stop : List Char} (h : Ends stop) : ∀ c ∈ stop.head?, isGap c = false := by
  intro c hc
  obtain rfl | rfl | rfl := h.cases_head hc <;> decide

theorem Ends.isIdentPart_head {stop : List Char} (h : Ends stop) :
    ∀ c ∈ stop.head?, Text.isIdentPart c = false := by
  intro c hc
  obtain rfl | rfl | rfl := h.cases_head hc <;> decide

/-- In a segment, the blanks that the scan skips behind a name are all the blanks there. -/
theorem dropWhile_isGap_eq_trimStart {cs : List Char} (h : Unbroken cs) :
    cs.dropWhile isGap = Text.trimStart cs := by
  induction cs with
  | nil => rfl
  | cons c cs ih =>
    obtain ⟨hline, hreturn, -, h⟩ := unbroken_cons_iff.1 h
    have hgap : isGap c = Text.isBlank c := by
      rw [isGap, bne_iff_ne.2 hline, bne_iff_ne.2 hreturn, Bool.and_true, Bool.and_true]
    rw [Text.trimStart, List.dropWhile_cons, List.dropWhile_cons, hgap, ih h, Text.trimStart]

theorem dropWhile_isGap_append {cs stop : List Char} (h : Unbroken cs) (hstop : Ends stop) :
    (cs ++ stop).dropWhile isGap = Text.trimStart cs ++ stop := by
  rw [← dropWhile_isGap_eq_trimStart h, List.dropWhile_append]
  split
  · rename_i hnil
    rw [List.isEmpty_iff.1 hnil, dropWhile_isGap_eq hstop.isGap_head]
    rfl
  · rfl

/-- The scan takes a segment with a mark whole: it finds the directive that the segment gives and
goes on where the segment ends. -/
theorem scanFrom_gives {offset : Nat} {cs stop : List Char} {d : Directive} (h : Unbroken cs)
    (hstop : Ends stop) (hd : Segment.Gives ⟨offset, cs⟩ d) :
    scanFrom offset (cs ++ stop) = d :: scanFrom (offset + cs.length) stop := by
  obtain @⟨before, name, rest, rfl, hfirst, hname, hlong⟩ := hd
  have hrest : Unbroken rest := h.of_isInfix ⟨before ++ '!' :: name, [], by simp⟩
  have hhead : ∀ c ∈ (rest ++ stop).head?, Text.isIdentPart c = false := by
    intro c hc
    cases rest with
    | nil => exact hstop.isIdentPart_head c hc
    | cons r rs => exact hlong c hc
  have hdrop := dropWhile_isGap_append hrest hstop
  have hspan : spanArguments (Text.trimStart rest ++ stop) = (Text.trimStart rest, stop) :=
    spanArguments_unbroken (hrest.of_isInfix (List.dropWhile_suffix _).isInfix) hstop
  have hlength : offset + before.length + 1 + name.length
        + ((rest ++ stop).takeWhile isGap).length + (Text.trimStart rest).length
      = offset + (before ++ '!' :: (name ++ rest)).length := by
    have hall := congrArg List.length
      (List.takeWhile_append_dropWhile (p := isGap) (l := rest ++ stop))
    rw [hdrop] at hall
    simp only [List.length_append, List.length_cons] at hall ⊢
    omega
  have hmark := scanFrom_mark (offset + before.length) hname hhead
  rw [hdrop, hspan, ← Text.trim, hlength] at hmark
  rw [List.append_assoc, scanFrom_unmarked offset hfirst (by rintro c ⟨⟩; decide),
    List.cons_append, List.append_assoc, hmark]

/-- The scan goes over a separator without finding anything. -/
theorem scanFrom_separator {sep : List Char} (h : sep ∈ separators) (offset : Nat)
    (rest : List Char) : scanFrom offset (sep ++ rest) = scanFrom (offset + sep.length) rest :=
  scanFrom_skip offset rest (by revert sep; decide)

/-- A segment is scanned as what it tells, and the scan goes on where it ends. -/
theorem scanFrom_tells {s : Segment} {ss : List Segment} {ds : List Directive} {stop : List Char}
    (h : Unbroken s.chars) (hstop : Ends stop) (ht : Tells (s :: ss) ds) :
    ∃ front es, ds = front ++ es ∧ Tells ss es ∧
      scanFrom s.offset (s.chars ++ stop)
        = front ++ scanFrom (s.offset + s.chars.length) stop := by
  cases ht with
  | silent hmarked tail =>
    refine ⟨[], _, rfl, tail, scanFrom_unmarked s.offset hmarked fun c hc => ?_⟩
    exact (Bool.or_eq_false_iff.1 (hstop.isIdentPart_head c hc)).1
  | directive hgives tail => exact ⟨[_], _, rfl, tail, scanFrom_gives h hstop hgives⟩

/-! ### All segments -/

theorem separators_pos : ∀ sep ∈ separators, 0 < sep.length := by decide

theorem separators_append_inj {sep sep' rest rest' : List Char} (h : sep ∈ separators)
    (h' : sep' ∈ separators) (heq : sep ++ rest = sep' ++ rest') : sep = sep' ∧ rest = rest' := by
  simp only [separators, List.mem_cons, List.not_mem_nil, or_false] at h h'
  obtain rfl | rfl | rfl := h <;> obtain rfl | rfl | rfl := h' <;> simp_all

theorem exists_cut (offset : Nat) (cs : List Char) : ∃ ss, Cut offset cs ss := by
  induction hn : cs.length using Nat.strong_induction_on generalizing offset cs with
  | h n ih =>
    obtain ⟨hcut, hends⟩ := spanArguments_cut cs
    have happend := spanArguments_append cs
    generalize (spanArguments cs).1 = front at hcut happend
    generalize (spanArguments cs).2 = stop at hends happend
    subst happend
    cases hends with
    | text => exact ⟨_, by simpa using Cut.last hcut⟩
    | @separator sep hsep rest =>
      have hlt : rest.length < n := by
        have hpos : 0 < sep.length := separators_pos sep hsep
        simp only [List.length_append] at hn
        omega
      obtain ⟨ss, hss⟩ := ih _ hlt (offset + front.length + sep.length) rest rfl
      exact ⟨_, .more hcut hsep hss⟩

/-- A text can be cut in one way only: each segment ends at the first separator behind its
start. -/
theorem Cut.unique {offset : Nat} {cs : List Char} {ss ts : List Segment} (h : Cut offset cs ss)
    (h' : Cut offset cs ts) : ss = ts := by
  induction h generalizing ts with
  | last hcut =>
    cases h' with
    | last hcut' => rfl
    | more hcut' hsep tail => exact absurd ⟨_, _, (List.append_assoc ..)⟩ (hcut _ hsep)
  | @more _ front sep rest _ hcut hsep tail ih =>
    generalize htext : front ++ (sep ++ rest) = text at h'
    cases h' with
    | last hcut' => exact absurd ⟨_, _, (List.append_assoc ..).trans htext⟩ (hcut' _ hsep)
    | more hcut' hsep' tail' =>
      have hspan := spanArguments_unbroken hcut (.separator hsep rest)
      rw [htext, spanArguments_unbroken hcut' (.separator hsep' _), Prod.mk.injEq] at hspan
      obtain ⟨rfl, heq⟩ := hspan
      obtain ⟨rfl, rfl⟩ := separators_append_inj hsep' hsep heq
      rw [ih tail']

theorem exists_tells (ss : List Segment) : ∃ ds, Tells ss ds := by
  induction ss with
  | nil => exact ⟨[], .nil⟩
  | cons s ss ih =>
    obtain ⟨ds, hds⟩ := ih
    by_cases hmarked : Marked s.chars
    · obtain ⟨before, name, rest, hchars, hfirst, hname, hlong⟩ := exists_first_mark hmarked
      exact ⟨_, .directive (.intro hchars hfirst hname hlong) hds⟩
    · exact ⟨ds, .silent hmarked hds⟩

/-- The scan finds what the segments of the text tell. -/
theorem Cut.scanFrom_eq {offset : Nat} {cs : List Char} {ss : List Segment} {ds : List Directive}
    (h : Cut offset cs ss) (ht : Tells ss ds) : scanFrom offset cs = ds := by
  induction h generalizing ds with
  | last hcut =>
    obtain ⟨front, es, rfl, hes, hscan⟩ := scanFrom_tells hcut .text ht
    cases hes
    simpa [scanFrom] using hscan
  | more hcut hsep tail ih =>
    obtain ⟨front, es, rfl, hes, hscan⟩ := scanFrom_tells hcut (.separator hsep _) ht
    rw [hscan, scanFrom_separator hsep, ih hes]

/-- **The directives of a comment are those of its segments.**  A comment can be cut in one way
only at its line feeds, carriage returns and `*/`, and the scan finds, in order, one directive for
each segment with an exclamation mark in front of an identifier: its name is the longest identifier
at the first such mark, its arguments are the rest of the segment without the blanks at both ends,
and its offset is the place of the mark in the comment. -/
theorem scan_segments (comment : String) :
    ∃ ss, (∀ ts, Cut 0 comment.toList ts ↔ ts = ss) ∧
      ∀ ds, Tells ss ds ↔ ds = scan comment := by
  obtain ⟨ss, hcut⟩ := exists_cut 0 comment.toList
  obtain ⟨ds, htells⟩ := exists_tells ss
  refine ⟨ss, fun ts => ⟨fun h => h.unique hcut, ?_⟩, fun es => ⟨fun h => ?_, ?_⟩⟩
  · rintro rfl
    exact hcut
  · exact (hcut.scanFrom_eq h).symm
  · rintro rfl
    rw [scan, hcut.scanFrom_eq htells]
    exact htells

end DocDirective.Directive
