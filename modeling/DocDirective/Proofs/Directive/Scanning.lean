import DocDirective.Directive
import DocDirective.Proofs.Arguments.Written
import DocDirective.Proofs.Text.Identifier

/-!
# Proofs — Directive — Scanning

What the scan makes of a written directive.  Its text holds nothing that ends a directive early and
neither begins nor ends with a blank; so the scan takes it whole, drops the blanks behind it, and
goes on behind them.
-/

namespace DocDirective.Directive

open Arguments (isPlain escape render renderValue renderKeyed renderScalar)

/-! ### Texts that the scan takes whole -/

theorem spanArguments_cons {c : Char} {rest : List Char} (hn : c ≠ '\n') (hr : c ≠ '\r')
    (hs : c = '*' → rest.head? ≠ some '/') :
    spanArguments (c :: rest) = (c :: (spanArguments rest).1, (spanArguments rest).2) := by
  rw [spanArguments, if_neg]
  simpa [hn, hr] using hs

/-- Nothing in the text ends the arguments of a directive. -/
def Passes (cs : List Char) : Prop :=
  ∀ rest, spanArguments (cs ++ rest) = (cs ++ (spanArguments rest).1, (spanArguments rest).2)

theorem passes_nil : Passes [] := fun _ => rfl

theorem Passes.append {cs ds : List Char} (hc : Passes cs) (hd : Passes ds) :
    Passes (cs ++ ds) := by
  intro rest
  rw [List.append_assoc, hc, hd, List.append_assoc]

theorem passes_of_forall {cs : List Char} (h : ∀ c ∈ cs, c ≠ '\n' ∧ c ≠ '\r' ∧ c ≠ '*') :
    Passes cs := by
  intro rest
  induction cs with
  | nil => rfl
  | cons c cs ih =>
    rw [List.forall_mem_cons] at h
    obtain ⟨⟨hn, hr, hs⟩, h⟩ := h
    rw [List.cons_append, spanArguments_cons hn hr fun hc => absurd hc hs, ih h]
    rfl

/-- Escaping puts no slash behind a star that has none behind it in the text. -/
theorem head?_escape {q : Char} (hq : q ≠ '/') {cs : List Char} (rest : List Char)
    (h : cs.head? ≠ some '/') : (escape q cs ++ q :: rest).head? ≠ some '/' := by
  cases cs with
  | nil => simpa [escape] using hq
  | cons c cs =>
    rw [Arguments.escape_cons]
    split
    · simp
    · simpa using h

/-- A quoted text passes if it holds neither a line end nor `*/`. -/
theorem spanArguments_escape {q : Char} (hq : Arguments.isQuote q = true) {cs : List Char}
    (hline : ∀ c ∈ cs, c ≠ '\n' ∧ c ≠ '\r') (hend : Arguments.hasTerminator cs = false)
    (rest : List Char) :
    spanArguments (escape q cs ++ q :: rest)
      = (escape q cs ++ q :: (spanArguments rest).1, (spanArguments rest).2) := by
  have hne : q ≠ '\n' ∧ q ≠ '\r' ∧ q ≠ '*' ∧ q ≠ '/' := by
    refine ⟨?_, ?_, ?_, ?_⟩ <;> rintro rfl <;> cases hq
  obtain ⟨hqn, hqr, hqs, hqd⟩ := hne
  induction cs with
  | nil => exact spanArguments_cons hqn hqr fun hc => absurd hc hqs
  | cons c cs ih =>
    rw [List.forall_mem_cons] at hline
    rw [Arguments.hasTerminator, Bool.or_eq_false_iff] at hend
    obtain ⟨⟨hn, hr⟩, hline⟩ := hline
    have ih := ih hline hend.2
    rw [Arguments.escape_cons]
    split
    · -- neither the backslash nor the quote behind it is a star
      rename_i heq
      subst heq
      simp only [List.cons_append, List.nil_append]
      rw [spanArguments_cons (by decide) (by decide) fun hc => absurd hc (by decide),
        spanArguments_cons hqn hqr fun hc => absurd hc hqs, ih]
    · -- a star may stand here, if no slash follows
      have hstar : c = '*' → (escape q cs ++ q :: rest).head? ≠ some '/' := by
        rintro rfl
        exact head?_escape hqd rest (by simpa using hend.1)
      simp only [List.cons_append, List.nil_append]
      rw [spanArguments_cons hn hr hstar, ih]

/-- A text that neither begins nor ends with a blank, and that passes. -/
structure Solid (cs : List Char) : Prop where
  passes : Passes cs
  head   : ∃ c rest, cs = c :: rest ∧ Text.isBlank c = false
  last   : ∃ front c, cs = front ++ [c] ∧ Text.isBlank c = false

theorem Solid.append {cs ds : List Char} (hc : Solid cs) (hd : Solid ds) : Solid (cs ++ ds) := by
  obtain ⟨a, as, rfl, ha⟩ := hc.head
  obtain ⟨bs, b, rfl, hb⟩ := hd.last
  exact ⟨hc.passes.append hd.passes, ⟨a, _, rfl, ha⟩, ⟨_, b, (List.append_assoc ..).symm, hb⟩⟩

theorem Solid.between {cs ds ms : List Char} (hc : Solid cs) (hm : Passes ms) (hd : Solid ds) :
    Solid (cs ++ (ms ++ ds)) := by
  obtain ⟨a, as, rfl, ha⟩ := hc.head
  obtain ⟨bs, b, rfl, hb⟩ := hd.last
  refine ⟨hc.passes.append (hm.append hd.passes), ⟨a, _, rfl, ha⟩,
    ⟨a :: as ++ (ms ++ bs), b, ?_, hb⟩⟩
  simp

theorem solid_of_plain {cs : List Char} (hn : cs ≠ [])
    (h : ∀ c ∈ cs, isPlain c = true ∧ c ≠ '*') : Solid cs := by
  have hblank : ∀ c ∈ cs, Text.isBlank c = false := by
    intro c hc
    have := (h c hc).1
    simp only [isPlain, Bool.and_eq_true] at this
    simpa using this.1.1.1
  refine ⟨passes_of_forall fun c hc => ⟨?_, ?_, (h c hc).2⟩, ?_, ?_⟩
  · rintro rfl
    exact absurd (hblank _ hc) (by decide)
  · rintro rfl
    exact absurd (hblank _ hc) (by decide)
  · obtain ⟨c, cs, rfl⟩ := List.exists_cons_of_ne_nil hn
    exact ⟨c, cs, rfl, hblank c List.mem_cons_self⟩
  · refine ⟨cs.dropLast, cs.getLast hn, (List.dropLast_append_getLast hn).symm, ?_⟩
    exact hblank _ (List.getLast_mem hn)

/-! ### Written arguments -/

theorem solid_of_numberParts {cs : List Char} (hn : cs ≠ []) (h : ∀ c ∈ cs, c ∈ numberParts) :
    Solid cs := by
  refine solid_of_plain hn fun c hc => ⟨Arguments.isPlain_of_mem_numberParts (h c hc), ?_⟩
  rintro rfl
  exact absurd (h _ hc) (by decide)

theorem solid_renderScalar {v : Value} {r : String} (h : renderScalar v = .ok r) :
    Solid r.toList := by
  cases v with
  | bool b =>
    cases h
    have hplain : (if b then "true" else "false").toList.all
        (fun c => isPlain c && c != '*') = true := by
      cases b <;> decide
    refine solid_of_plain (by cases b <;> decide) fun c hc => ?_
    simpa using List.all_eq_true.1 hplain c hc
  | int n =>
    have ht := Arguments.renderScalar_int h
    exact solid_of_numberParts (Numeral.toList_ne_nil_of_intText ht)
      (Arguments.mem_numberParts_of_intText ht)
  | float x =>
    obtain ⟨hx, rfl⟩ := Arguments.renderScalar_float h
    exact solid_of_numberParts x.toList_text_ne_nil
      (Arguments.mem_numberParts_of_text hx)
  | text s =>
    obtain ⟨-, hline, hend, rfl⟩ := Arguments.renderScalar_text h
    rw [Arguments.quote, String.toList_ofList]
    refine ⟨fun rest => ?_, ⟨'\x27', _, rfl, by decide⟩, ⟨_, '\x27', rfl, by decide⟩⟩
    have hspan := spanArguments_escape (q := '\x27') (by decide) hline hend rest
    simp only [List.cons_append, List.append_assoc, List.nil_append]
    rw [spanArguments_cons (by decide) (by decide) fun hc => absurd hc (by decide)]
    exact congrArg (fun r : List Char × List Char => ('\x27' :: r.1, r.2)) hspan
  | null => exact absurd h (Arguments.refuse_ne_ok .null r)
  | list vs => exact absurd h (Arguments.refuse_ne_ok (.list vs) r)
  | map es => exact absurd h (Arguments.refuse_ne_ok (.map es) r)

/-- Solid texts with commas and spaces between them. -/
theorem solid_intercalate {css : List (List Char)} (hn : css ≠ []) (h : ∀ cs ∈ css, Solid cs) :
    Solid ([',', ' '].intercalate css) := by
  induction css with
  | nil => exact absurd rfl hn
  | cons cs css ih =>
    rw [List.forall_mem_cons] at h
    cases css with
    | nil => simpa using h.1
    | cons ds dss =>
      have hcomma : Passes [',', ' '] := passes_of_forall (by simp)
      simpa using h.1.between hcomma (ih (List.cons_ne_nil ds dss) h.2)

theorem passes_intercalate {css : List (List Char)} (h : ∀ cs ∈ css, Solid cs) :
    Passes ([',', ' '].intercalate css) := by
  cases css with
  | nil => exact passes_nil
  | cons cs css => exact (solid_intercalate (List.cons_ne_nil cs css) h).passes

theorem solid_singleton {c : Char} (hp : c ≠ '\n' ∧ c ≠ '\r' ∧ c ≠ '*')
    (hb : Text.isBlank c = false) : Solid [c] :=
  ⟨passes_of_forall (by simpa using hp), ⟨c, [], rfl, hb⟩, ⟨[], c, rfl, hb⟩⟩

theorem solid_renderValue {v : Value} {r : String} (h : renderValue v = .ok r) :
    Solid r.toList := by
  obtain ⟨vs, rfl⟩ | hv := Arguments.isList_cases v
  · obtain ⟨rs, hm, rfl⟩ := Arguments.renderItems_of_renderValue h
    have hrs : ∀ cs ∈ rs.map String.toList, Solid cs := by
      intro cs hcs
      obtain ⟨r, hr, rfl⟩ := List.mem_map.1 hcs
      obtain ⟨v, hv⟩ := exists_of_mapM_right hm hr
      exact solid_renderScalar (Arguments.renderItem_eq hv)
    have hopen := solid_singleton (c := '(') (by decide) (by decide)
    have hclose := solid_singleton (c := ')') (by decide) (by decide)
    simpa using hopen.between (passes_intercalate hrs) hclose
  · rw [Arguments.renderValue_scalar hv] at h
    exact solid_renderScalar h

theorem solid_of_isKey {cs : List Char} (h : Arguments.isKey cs = true) : Solid cs := by
  obtain ⟨hn, hplain⟩ := Arguments.isPlain_of_isKey h
  refine solid_of_plain hn fun c hc => ⟨hplain c hc, ?_⟩
  rintro rfl
  exact absurd (Arguments.isKeyPart_of_mem h hc) (by decide)

theorem solid_renderKeyed {e : String × Value} {r : String} (h : renderKeyed e = .ok r) :
    Solid r.toList := by
  obtain ⟨hkey, -, t, ht, rfl⟩ := Arguments.renderKeyed_eq h
  have hcolon : Passes [':', ' '] := passes_of_forall (by simp)
  simpa using (solid_of_isKey hkey).between hcolon (solid_renderValue ht)

/-- The text of written arguments is solid, or there are none. -/
theorem solid_arguments {positional : List Value} {keyed : Keyed Value} {ps ks : List String}
    (hp : positional.mapM renderValue = .ok ps) (hk : keyed.entries.mapM renderKeyed = .ok ks)
    (hn : ps ++ ks ≠ []) : Solid (", ".intercalate (ps ++ ks)).toList := by
  rw [String.toList_intercalate]
  refine solid_intercalate (by simpa using hn) fun cs hcs => ?_
  obtain ⟨r, hr, rfl⟩ := List.mem_map.1 hcs
  rcases List.mem_append.1 hr with hr | hr
  · obtain ⟨v, hv⟩ := exists_of_mapM_right hp hr
    exact solid_renderValue hv
  · obtain ⟨e, he⟩ := exists_of_mapM_right hk hr
    exact solid_renderKeyed he

/-! ### Scanning -/

theorem scanFrom_skip (offset : Nat) {cs : List Char} (rest : List Char) (h : '!' ∉ cs) :
    scanFrom offset (cs ++ rest) = scanFrom (offset + cs.length) rest := by
  induction cs generalizing offset with
  | nil => rfl
  | cons c cs ih =>
    rw [List.mem_cons, not_or] at h
    rw [List.cons_append, scanFrom, if_neg (Ne.symm h.1), ih _ h.2, List.length_cons]
    congr 1
    omega

/-- A directive is found where its mark and its name stand, and the scan goes on behind its
arguments. -/
theorem scanFrom_mark (offset : Nat) {name rest : List Char} (h : Text.isIdentifier name = true)
    (hr : ∀ c ∈ rest.head?, Text.isIdentPart c = false) :
    scanFrom offset ('!' :: (name ++ rest))
      = ⟨String.ofList name,
          String.ofList (Text.trimEnd (spanArguments (rest.dropWhile isGap)).1), offset⟩ ::
        scanFrom (offset + 1 + name.length + (rest.takeWhile isGap).length
            + (spanArguments (rest.dropWhile isGap)).1.length)
          (spanArguments (rest.dropWhile isGap)).2 := by
  have hspan := Text.spanIdentifier_append h hr
  rw [scanFrom, if_pos rfl]
  split <;> rename_i h' <;> cases hspan.symm.trans h'
  rfl

/-- The arguments of a directive end here: at the end of the text, of the line or of the
comment. -/
inductive Stops : List Char → Prop
  | text                   : Stops []
  | line (rest : List Char) : Stops ('\n' :: rest)
  | mark (rest : List Char) : Stops ('*' :: '/' :: rest)

theorem Stops.spanArguments_eq {cs : List Char} (h : Stops cs) : spanArguments cs = ([], cs) := by
  cases h <;> rfl

theorem Stops.head {cs : List Char} (h : Stops cs) :
    ∀ c ∈ cs.head?, isGap c = false ∧ Text.isIdentPart c = false := by
  cases h <;> simp only [List.head?_nil, List.head?_cons, Option.mem_def, Option.some.injEq,
    reduceCtorEq, false_imp_iff, forall_eq', implies_true] <;> decide

theorem isBlank_of_isGap {c : Char} (h : isGap c = true) : Text.isBlank c = true := by
  simp only [isGap, Bool.and_eq_true] at h
  exact h.1.1

theorem passes_of_isGap {cs : List Char} (h : ∀ c ∈ cs, isGap c = true) : Passes cs := by
  refine passes_of_forall fun c hc => ⟨?_, ?_, ?_⟩ <;> rintro rfl <;> cases h _ hc

theorem dropWhile_isGap_eq {cs : List Char} (h : ∀ c ∈ cs.head?, isGap c = false) :
    cs.dropWhile isGap = cs := by
  cases cs with
  | nil => rfl
  | cons c cs => exact List.dropWhile_cons_of_neg (by simp [h c rfl])

/-- A written directive is scanned with the arguments that it was written with; the blanks behind
them are dropped. -/
theorem scanFrom_written (offset : Nat) {name args blanks stop : List Char}
    (hname : Text.isIdentifier name = true) (hargs : args = [] ∨ Solid args)
    (hblanks : ∀ c ∈ blanks, isGap c = true) (hstop : Stops stop) :
    ∃ next, scanFrom offset
        ('!' :: (name ++ ((if args = [] then [] else ' ' :: args) ++ (blanks ++ stop))))
      = ⟨String.ofList name, String.ofList args, offset⟩ :: scanFrom next stop := by
  have hgap := dropWhile_isGap_eq fun c hc => (hstop.head c hc).1
  have hident : ∀ c ∈ (blanks ++ stop).head?, Text.isIdentPart c = false := by
    cases blanks with
    | nil => exact fun c hc => (hstop.head c hc).2
    | cons b bs =>
      rintro c ⟨⟩
      exact Text.isIdentPart_of_isBlank (isBlank_of_isGap (hblanks _ List.mem_cons_self))
  rcases hargs with rfl | hargs
  · -- no arguments: the blanks are all there is up to the stop
    have hscan := scanFrom_mark offset hname hident
    rw [List.dropWhile_append_of_pos hblanks, hgap, hstop.spanArguments_eq] at hscan
    exact ⟨_, hscan⟩
  · -- arguments: the space in front of them is skipped, the blanks behind them are trimmed
    obtain ⟨c, cs, rfl, hc⟩ := hargs.head
    have hspace : ∀ b ∈ (' ' :: (c :: cs ++ (blanks ++ stop))).head?,
        Text.isIdentPart b = false := by
      rintro b ⟨⟩
      decide
    have hscan := scanFrom_mark offset hname hspace
    have hdrop : (' ' :: (c :: cs ++ (blanks ++ stop))).dropWhile isGap
        = c :: cs ++ (blanks ++ stop) := by
      rw [List.dropWhile_cons_of_pos (by decide)]
      exact dropWhile_isGap_eq (by rintro d ⟨⟩; simp [isGap, hc])
    obtain ⟨front, d, hlast, hd⟩ := hargs.last
    have htrim : Text.trimEnd (c :: cs ++ blanks) = c :: cs := by
      rw [Text.trimEnd_append_blank _ fun b hb => isBlank_of_isGap (hblanks b hb), hlast,
        Text.trimEnd_concat, hd, if_neg Bool.false_ne_true]
    rw [hdrop, hargs.passes, passes_of_isGap hblanks, hstop.spanArguments_eq, List.append_nil,
      htrim] at hscan
    exact ⟨_, by simpa using hscan⟩

end DocDirective.Directive
