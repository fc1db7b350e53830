import DocDirective.Proofs.Arguments.Direct

/-!
# Proofs — Arguments — Reading

What stands in front of a literal is read alike whatever the literal holds (`Reads.refill`).  Only a
quote of the other kind that stands open in front of it, on the same line, could be closed by what
is put between the quotes.  Every literal of a text is at a site (`exists_site`), where something
else can be put between its quotes (`Site.ofText_refill`).
-/

namespace DocDirective.Arguments

/-! ### Quotes that stay open -/

/-- A quote `q` behind the character `p` is not closed on the first line of a text: every `q` on it
stands right behind a backslash. -/
def Unclosed (p q : Char) (cs : List Char) : Prop :=
  ∀ before after, cs = before ++ q :: after → '\n' ∉ before → before.getLastD p = '\\'

theorem unclosed_nil (p q : Char) : Unclosed p q [] := by
  intro before after h
  cases before <;> cases h

theorem unclosed_cons_iff {p q c : Char} {cs : List Char} :
    Unclosed p q (c :: cs) ↔ (c = q → p = '\\') ∧ (c ≠ '\n' → Unclosed c q cs) := by
  constructor
  · intro h
    refine ⟨fun hc => h [] cs (by rw [hc]; rfl) List.not_mem_nil, fun hc before after heq hm => ?_⟩
    have hline : '\n' ∉ c :: before := by
      rw [List.mem_cons, not_or]
      exact ⟨hc.symm, hm⟩
    have hlast := h (c :: before) after (congrArg (List.cons c) heq) hline
    rwa [List.getLastD_cons] at hlast
  · rintro ⟨hfirst, hrest⟩ before after heq hline
    cases before with
    | nil =>
      obtain ⟨hc, -⟩ := List.cons.inj heq
      exact hfirst hc
    | cons d before =>
      obtain ⟨rfl, htail⟩ := List.cons.inj heq
      rw [List.mem_cons, not_or] at hline
      rw [List.getLastD_cons]
      exact hrest (Ne.symm hline.1) before after htail hline.2

theorem unclosed_append_iff {p q : Char} {cs ds : List Char} : Unclosed p q (cs ++ ds)
    ↔ Unclosed p q cs ∧ ('\n' ∉ cs → Unclosed (cs.getLastD p) q ds) := by
  induction cs generalizing p with
  | nil => simp [unclosed_nil]
  | cons c cs ih =>
    rw [List.cons_append, unclosed_cons_iff, unclosed_cons_iff, ih, List.getLastD_cons,
      List.mem_cons, not_or, ← ne_eq, ne_comm]
    tauto

/-- A quote is not closed where no literal of its own opens. -/
theorem spanLiteral_eq_none_iff {p q : Char} {cs : List Char} (hq : q ≠ '\n') :
    spanLiteral q (p = '\\') cs = none ↔ Unclosed p q cs := by
  induction cs generalizing p with
  | nil => exact iff_of_true rfl (unclosed_nil p q)
  | cons c cs ih =>
    rw [spanLiteral, unclosed_cons_iff, ← ih]
    by_cases hclose : c = q ∧ p ≠ '\\'
    · obtain ⟨rfl, hp⟩ := hclose
      simp [hp]
    · have hopen : c = q → p = '\\' := fun hc => not_not.1 fun hp => hclose ⟨hc, hp⟩
      rw [if_neg (by simpa using hopen)]
      by_cases hline : c = '\n'
      · simp [hline, hq.symm]
      · rw [if_neg hline, Option.map_eq_none_iff]
        exact ⟨fun h => ⟨hopen, fun _ => h⟩, fun h => h.2 hline⟩

theorem unclosed_iff_of_isQuote {q : Char} (hq : isQuote q = true) {cs : List Char} :
    Unclosed q q cs ↔ spanLiteral q false cs = none := by
  obtain ⟨hbackslash, hline⟩ := ne_of_isQuote hq
  rw [← spanLiteral_eq_none_iff hline, decide_eq_false hbackslash]

/-- Over a literal, another quote stays open where neither the content nor what follows closes
it. -/
theorem unclosed_literal_iff {p q o : Char} {content post : List Char} (hq : isQuote q = true)
    (hc : Encloses q q content) : Unclosed p o (q :: (content ++ q :: post))
      ↔ (q = o → p = '\\') ∧ q ≠ o ∧ Unclosed q o content ∧ Unclosed q o post := by
  have hline : q ≠ '\n' := (ne_of_isQuote hq).2
  rw [unclosed_cons_iff, unclosed_append_iff, unclosed_cons_iff]
  have hclosing := hc.closing
  have hcontent := hc.line
  tauto

/-- What is put between quotes closes another quote exactly if it closes it by itself. -/
theorem unclosed_escape_iff {p q o : Char} (ho : isQuote o = true) (hne : q ≠ o)
    (cs : List Char) : Unclosed p o (escape q cs) ↔ Unclosed p o cs := by
  have hbackslash : '\\' ≠ o := (ne_of_isQuote ho).1.symm
  induction cs generalizing p with
  | nil => rfl
  | cons c cs ih =>
    rw [escape_cons]
    split
    · rename_i heq
      subst heq
      simp only [List.cons_append, List.nil_append, unclosed_cons_iff, ih]
      have hline : '\\' ≠ '\n' := by decide
      tauto
    · simp only [List.singleton_append, unclosed_cons_iff, ih]

theorem encloses_escape {q : Char} (hq : isQuote q = true) {cs : List Char} (h : Quotable cs) :
    Encloses q q (escape q cs) :=
  ((spanLiteral_of_isQuote hq).1 (spanLiteral_escape hq h (fun _ => rfl) [])).2

/-! ### In front of a literal -/

/-- The pieces of a text in front of another, where no literal of the first reaches into the
other. -/
inductive Reads (rest : List Char) : List Char → List Piece → Prop where
  | nil : Reads rest [] []
  | literal {q : Char} {content after : List Char} {ps : List Piece} (hq : isQuote q = true)
      (hc : Encloses q q content) (tail : Reads rest after ps) :
      Reads rest (q :: (content ++ q :: after))
        (.literal (String.ofList (unescape q content)) :: ps)
  | char {c : Char} {front : List Char} {ps : List Piece}
      (hc : isQuote c = true → Unclosed c c (front ++ rest)) (tail : Reads rest front ps) :
      Reads rest (c :: front) (.char c :: ps)

theorem Reads.ofText {front rest : List Char} {ps : List Piece} (h : Reads rest front ps) :
    Piece.ofText (front ++ rest) = ps ++ Piece.ofText rest := by
  induction h with
  | nil => rfl
  | @literal q content after ps hq hc _ ih =>
    have hspan : spanLiteral q false (content ++ q :: (after ++ rest))
        = some (content, after ++ rest) := (spanLiteral_of_isQuote hq).2 ⟨rfl, hc⟩
    rw [List.cons_append, List.append_assoc, List.cons_append, Piece.ofText_literal hq hspan, ih]
    rfl
  | @char c front ps hc _ ih =>
    rw [List.cons_append]
    cases hq : isQuote c with
    | false => rw [Piece.ofText_char hq, ih, List.cons_append]
    | true =>
      rw [Piece.ofText_open hq ((unclosed_iff_of_isQuote hq).1 (hc hq)), ih, List.cons_append]

/-- Where the pieces of a text are taken apart, so is the text. -/
theorem exists_reads {cs : List Char} {ps qs : List Piece} (h : Piece.ofText cs = ps ++ qs) :
    ∃ front rest, cs = front ++ rest ∧ Reads rest front ps ∧ Piece.ofText rest = qs := by
  induction cs using Piece.ofText.induct generalizing ps with
  | case1 =>
    have hnil := h
    rw [Piece.ofText] at hnil
    obtain ⟨rfl, rfl⟩ := List.nil_eq_append_iff.1 hnil
    exact ⟨[], [], rfl, .nil, h⟩
  | case2 c rest hc content after hspan _ ih =>
    cases ps with
    | nil => exact ⟨[], _, rfl, .nil, h⟩
    | cons p ps =>
      rw [Piece.ofText_literal hc hspan, List.cons_append, List.cons.injEq] at h
      obtain ⟨rfl, hrest⟩ := h
      obtain ⟨rfl, henc⟩ := (spanLiteral_of_isQuote hc).1 hspan
      obtain ⟨front, back, rfl, hreads, hback⟩ := ih hrest
      exact ⟨_, back, by simp, .literal hc henc hreads, hback⟩
  | case3 c rest hc hspan ih =>
    cases ps with
    | nil => exact ⟨[], _, rfl, .nil, h⟩
    | cons p ps =>
      rw [Piece.ofText_open hc hspan, List.cons_append, List.cons.injEq] at h
      obtain ⟨rfl, hrest⟩ := h
      obtain ⟨front, back, rfl, hreads, hback⟩ := ih hrest
      exact ⟨c :: front, back, rfl,
        .char (fun _ => (unclosed_iff_of_isQuote hc).2 hspan) hreads, hback⟩
  | case4 c rest hc ih =>
    cases ps with
    | nil => exact ⟨[], _, rfl, .nil, h⟩
    | cons p ps =>
      rw [Piece.ofText_char (eq_false_of_ne_true hc), List.cons_append, List.cons.injEq] at h
      obtain ⟨rfl, hrest⟩ := h
      obtain ⟨front, back, rfl, hreads, hback⟩ := ih hrest
      exact ⟨c :: front, back, rfl, .char (fun hquote => absurd hquote hc) hreads, hback⟩

/-- Where no quote stands open, what follows does not matter. -/
theorem Reads.of_closed {front rest rest' : List Char} {ps : List Piece} (h : Reads rest front ps)
    (hclosed : ∀ p ∈ ps, p.isOpenQuote = false) : Reads rest' front ps := by
  induction h with
  | nil => exact .nil
  | literal hq hc _ ih =>
    rw [List.forall_mem_cons] at hclosed
    exact .literal hq hc (ih hclosed.2)
  | char _ _ ih =>
    rw [List.forall_mem_cons] at hclosed
    exact .char (fun hquote => absurd hquote (ne_true_of_eq_false hclosed.1)) (ih hclosed.2)

/-- A text in which no quote stands open is read alike whatever follows it. -/
theorem ofText_append_of_closed {cs : List Char}
    (h : ∀ p ∈ Piece.ofText cs, p.isOpenQuote = false) (ds : List Char) :
    Piece.ofText (cs ++ ds) = Piece.ofText cs ++ Piece.ofText ds := by
  obtain ⟨front, rest, hcs, hreads, hrest⟩ :=
    exists_reads (List.append_nil (Piece.ofText cs)).symm
  have hnil := splits_ofText rest
  rw [hrest] at hnil
  cases hnil
  rw [List.append_nil] at hcs
  subst hcs
  exact (hreads.of_closed h).ofText

theorem Reads.mem_of_char {front rest : List Char} {ps : List Piece} (h : Reads rest front ps)
    {c : Char} (hc : .char c ∈ ps) : c ∈ front := by
  induction h with
  | nil => cases hc
  | literal _ _ _ ih =>
    rcases List.mem_cons.1 hc with heq | hc
    · cases heq
    · exact List.mem_cons_of_mem _ (List.mem_append_right _ (List.mem_cons_of_mem _ (ih hc)))
  | char _ _ ih =>
    rcases List.mem_cons.1 hc with heq | hc
    · cases heq
      exact List.mem_cons_self
    · exact List.mem_cons_of_mem _ (ih hc)

/-- A quote stands open among pieces, and their last line is the one that it stands on. -/
def StandsOpen (ps : List Piece) (o : Char) : Prop :=
  isQuote o = true ∧ ∃ before after, ps = before ++ .char o :: after ∧ .char '\n' ∉ after

theorem StandsOpen.cons {ps : List Piece} {o : Char} (h : StandsOpen ps o) (p : Piece) :
    StandsOpen (p :: ps) o := by
  obtain ⟨ho, before, after, rfl, hline⟩ := h
  exact ⟨ho, p :: before, after, rfl, hline⟩

/-- **What stands in front of a literal is read alike whatever the literal holds**, as long as it
closes no quote of the other kind that stands open in front. -/
theorem Reads.refill {q : Char} {content post front cs : List Char} {ps : List Piece}
    (hq : isQuote q = true) (hc : Encloses q q content) (hcs : Quotable cs)
    (h : Reads (q :: (content ++ q :: post)) front ps)
    (hopen : ∀ o, o ≠ q → StandsOpen ps o → Unclosed q o cs) :
    Reads (q :: (escape q cs ++ q :: post)) front ps := by
  induction h with
  | nil => exact .nil
  | literal hq' hc' _ ih => exact .literal hq' hc' (ih fun o hne ho => hopen o hne (ho.cons _))
  | @char c front ps hchar tail ih =>
    refine .char (fun hquote => ?_) (ih fun o hne ho => hopen o hne (ho.cons _))
    obtain ⟨hfront, hrest⟩ := unclosed_append_iff.1 (hchar hquote)
    refine unclosed_append_iff.2 ⟨hfront, fun hline => ?_⟩
    -- the quote stands open up to the literal, so it is of the other kind
    obtain ⟨hfirst, hne, -, hpost⟩ := (unclosed_literal_iff hq hc).1 (hrest hline)
    have hstands : StandsOpen (.char c :: ps) c :=
      ⟨hquote, [], ps, rfl, fun hm => hline (tail.mem_of_char hm)⟩
    have hinside := (unclosed_escape_iff hquote hne cs).2 (hopen c hne.symm hstands)
    exact (unclosed_literal_iff hq (encloses_escape hq hcs)).2 ⟨hfirst, hne, hinside, hpost⟩

/-! ### A literal in a text -/

/-- A quoted literal in a text: its quote, what stands between its quotes, what stands behind it,
and what stands in front of it with the pieces that this is read as. -/
structure Site where
  front    : List Char
  quote    : Char
  content  : List Char
  back     : List Char
  pieces   : List Piece
  isQuote  : isQuote quote = true
  encloses : Encloses quote quote content
  reads    : Reads (quote :: (content ++ quote :: back)) front pieces

namespace Site

/-- The characters of the text. -/
def chars (x : Site) : List Char := x.front ++ x.quote :: (x.content ++ x.quote :: x.back)

/-- The text. -/
def text (x : Site) : String := String.ofList x.chars

/-- What the literal stands for. -/
def value (x : Site) : String := String.ofList (unescape x.quote x.content)

/-- The text with something else between the quotes, where its quotes of that kind are escaped. -/
def refill (x : Site) (c : String) : String :=
  String.ofList (x.front ++ x.quote :: (escape x.quote c.toList ++ x.quote :: x.back))

theorem ofText_append_literal {rest front back content : List Char} {ps : List Piece} {q : Char}
    (hq : Arguments.isQuote q = true) (hc : Encloses q q content)
    (hrest : rest = q :: (content ++ q :: back)) (h : Reads rest front ps) :
    Piece.ofText (front ++ rest)
      = ps ++ .literal (String.ofList (unescape q content)) :: Piece.ofText back := by
  rw [h.ofText, hrest, Piece.ofText_literal hq ((spanLiteral_of_isQuote hq).2 ⟨rfl, hc⟩)]

theorem ofText_text (x : Site) :
    Piece.ofText x.text.toList = x.pieces ++ .literal x.value :: Piece.ofText x.back := by
  rw [text, String.toList_ofList, chars]
  exact ofText_append_literal x.isQuote x.encloses rfl x.reads

/-- What fills the literal stands between the same pieces, as it is. -/
theorem ofText_refill (x : Site) {c : String} (hc : Quotable c.toList)
    (hopen : ∀ o, o ≠ x.quote → StandsOpen x.pieces o → Unclosed x.quote o c.toList) :
    Piece.ofText (x.refill c).toList = x.pieces ++ .literal c :: Piece.ofText x.back := by
  have hreads := x.reads.refill x.isQuote x.encloses hc hopen
  rw [refill, String.toList_ofList,
    ofText_append_literal x.isQuote (encloses_escape x.isQuote hc) rfl hreads,
    unescape_escape x.isQuote, String.ofList_toList]

end Site

theorem exists_chars {cs : List Char} {front back : List Piece} {s : String}
    (h : Piece.ofText cs = front ++ .literal s :: back) :
    ∃ x : Site, x.chars = cs ∧ x.pieces = front ∧ x.value = s ∧ Piece.ofText x.back = back := by
  obtain ⟨before, rest, rfl, hreads, hrest⟩ := exists_reads h
  have hsplits := splits_ofText rest
  rw [hrest] at hsplits
  cases hsplits with
  | @literal q content after _ hq hc tail =>
    exact ⟨⟨before, q, content, after, front, hq, hc, hreads⟩, rfl, rfl, rfl, tail.eq_ofText.symm⟩

/-- Every literal among the pieces of a text is at a site of the text. -/
theorem exists_site {text : String} {front back : List Piece} {s : String}
    (h : Piece.ofText text.toList = front ++ .literal s :: back) :
    ∃ x : Site, x.text = text ∧ x.pieces = front ∧ x.value = s ∧ Piece.ofText x.back = back := by
  obtain ⟨x, hx, hrest⟩ := exists_chars h
  refine ⟨x, ?_, hrest⟩
  rw [Site.text, hx, String.ofList_toList]

end DocDirective.Arguments
