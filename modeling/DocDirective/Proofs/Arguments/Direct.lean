import DocDirective.Proofs.Arguments.Lexing

/-!
# Proofs — Arguments — Direct

An argument text is read as it would be from left to right, with nothing masked and no blank
dropped before.  Read so, a text splits into literals and the characters outside them (`Splits`):
a quote opens a literal if it can be closed on its line, and is a character by itself otherwise.
The tokens of a text are those of the runs between its marks, in parentheses
(`ofText_eq_direct`).
-/

namespace DocDirective.Arguments

/-! ### Literals -/

/-- What stands between a character `p` and the quote `q` that closes a literal: it stays on its
line, every `q` in it stands right behind a backslash, and the closing one does not. -/
structure Encloses (p q : Char) (content : List Char) : Prop where
  line    : '\n' ∉ content
  quotes  : ∀ before after, content = before ++ q :: after → before.getLastD p = '\\'
  closing : content.getLastD p ≠ '\\'

theorem Encloses.nil {p q : Char} (hp : p ≠ '\\') : Encloses p q [] where
  line    := List.not_mem_nil
  quotes  := fun before after h => by cases before <;> cases h
  closing := hp

/-- A character in front is looked at by the one behind it only. -/
theorem encloses_cons_iff {p q c : Char} {content : List Char} (hline : c ≠ '\n')
    (hopen : c = q → p = '\\') : Encloses p q (c :: content) ↔ Encloses c q content := by
  constructor
  · intro h
    refine ⟨fun hm => h.line (List.mem_cons_of_mem c hm), fun before after heq => ?_, ?_⟩
    · have hlast := h.quotes (c :: before) after (congrArg (List.cons c) heq)
      rwa [List.getLastD_cons] at hlast
    · have hlast := h.closing
      rwa [List.getLastD_cons] at hlast
  · intro h
    refine ⟨fun hm => ?_, fun before after heq => ?_, ?_⟩
    · rcases List.mem_cons.1 hm with hc | hm
      · exact hline hc.symm
      · exact h.line hm
    · cases before with
      | nil =>
        obtain ⟨hc, -⟩ := List.cons.inj heq
        exact hopen hc
      | cons d before =>
        obtain ⟨rfl, htail⟩ := List.cons.inj heq
        rw [List.getLastD_cons]
        exact h.quotes before after htail
    · rw [List.getLastD_cons]
      exact h.closing

/-- A literal closes at the first quote of its kind on its line that no backslash precedes. -/
theorem spanLiteral_eq_some_iff {p q : Char} {cs content after : List Char} (hq : q ≠ '\n') :
    spanLiteral q (p = '\\') cs = some (content, after)
      ↔ cs = content ++ q :: after ∧ Encloses p q content := by
  induction cs generalizing p content with
  | nil => simp [spanLiteral]
  | cons c cs ih =>
    rw [spanLiteral]
    by_cases hclose : c = q ∧ p ≠ '\\'
    · -- the closing quote is right here
      obtain ⟨rfl, hp⟩ := hclose
      rw [if_pos (by simp [hp])]
      constructor
      · intro h
        cases h
        exact ⟨rfl, .nil hp⟩
      · rintro ⟨heq, henc⟩
        cases content with
        | nil =>
          obtain ⟨-, rfl⟩ := List.cons.inj heq
          rfl
        | cons d content =>
          obtain ⟨rfl, -⟩ := List.cons.inj heq
          exact absurd (henc.quotes [] content rfl) hp
    · have hopen : c = q → p = '\\' := fun hc => not_not.1 fun hp => hclose ⟨hc, hp⟩
      rw [if_neg (by simpa using hopen)]
      by_cases hline : c = '\n'
      · -- the line ends first
        rw [if_pos hline]
        refine iff_of_false (Option.some_ne_none _).symm ?_
        rintro ⟨heq, henc⟩
        cases content with
        | nil =>
          obtain ⟨rfl, -⟩ := List.cons.inj heq
          exact hq hline
        | cons d content =>
          obtain ⟨rfl, -⟩ := List.cons.inj heq
          exact henc.line (hline ▸ List.mem_cons_self)
      · rw [if_neg hline, Option.map_eq_some_iff]
        constructor
        · rintro ⟨⟨inner, rest⟩, hspan, heq⟩
          cases heq
          obtain ⟨rfl, henc⟩ := ih.1 hspan
          exact ⟨rfl, (encloses_cons_iff hline hopen).2 henc⟩
        · rintro ⟨heq, henc⟩
          cases content with
          | nil =>
            obtain ⟨hc, -⟩ := List.cons.inj heq
            exact absurd (hopen hc) henc.closing
          | cons d content =>
            obtain ⟨rfl, rfl⟩ := List.cons.inj heq
            exact ⟨(content, after), ih.2 ⟨rfl, (encloses_cons_iff hline hopen).1 henc⟩, rfl⟩

/-! ### Splitting a text -/

/-- The literals of a text and the characters outside them: a quote that can be closed opens a
literal, and any other character stands for itself. -/
inductive Splits : List Char → List Piece → Prop where
  | nil : Splits [] []
  | literal {q : Char} {content after : List Char} {ps : List Piece} (hq : isQuote q = true)
      (hc : Encloses q q content) (tail : Splits after ps) :
      Splits (q :: (content ++ q :: after)) (.literal (String.ofList (unescape q content)) :: ps)
  | char {c : Char} {rest : List Char} {ps : List Piece}
      (hc : isQuote c = true → ∀ content after, Encloses c c content →
        rest ≠ content ++ c :: after)
      (tail : Splits rest ps) : Splits (c :: rest) (.char c :: ps)

theorem ne_of_isQuote {q : Char} (hq : isQuote q = true) : q ≠ '\\' ∧ q ≠ '\n' := by
  constructor <;> rintro rfl <;> cases hq

theorem spanLiteral_of_isQuote {q : Char} (hq : isQuote q = true) {cs content after : List Char} :
    spanLiteral q false cs = some (content, after)
      ↔ cs = content ++ q :: after ∧ Encloses q q content := by
  obtain ⟨hbackslash, hline⟩ := ne_of_isQuote hq
  rw [← spanLiteral_eq_some_iff hline, decide_eq_false hbackslash]

theorem splits_ofText (cs : List Char) : Splits cs (Piece.ofText cs) := by
  induction cs using Piece.ofText.induct with
  | case1 =>
    rw [Piece.ofText]
    exact .nil
  | case2 c rest hc content after h _ ih =>
    rw [Piece.ofText_literal hc h]
    obtain ⟨rfl, henc⟩ := (spanLiteral_of_isQuote hc).1 h
    exact .literal hc henc ih
  | case3 c rest hc h ih =>
    rw [Piece.ofText_open hc h]
    refine .char (fun _ content after henc heq => ?_) ih
    cases h.symm.trans ((spanLiteral_of_isQuote hc).2 ⟨heq, henc⟩)
  | case4 c rest hc ih =>
    rw [Piece.ofText_char (eq_false_of_ne_true hc)]
    exact .char (fun hquote => absurd hquote hc) ih

theorem Splits.eq_ofText {cs : List Char} {ps : List Piece} (h : Splits cs ps) :
    ps = Piece.ofText cs := by
  induction h with
  | nil =>
    rw [Piece.ofText]
  | literal hq hc _ ih =>
    rw [Piece.ofText_literal hq ((spanLiteral_of_isQuote hq).2 ⟨rfl, hc⟩), ih]
  | @char c rest ps hc _ ih =>
    cases hq : isQuote c with
    | false => rw [Piece.ofText_char hq, ih]
    | true =>
      cases hspan : spanLiteral c false rest with
      | none => rw [Piece.ofText_open hq hspan, ih]
      | some r =>
        obtain ⟨heq, henc⟩ := (spanLiteral_of_isQuote hq).1 hspan
        exact absurd heq (hc hq r.1 r.2 henc)

/-- A text splits in one way. -/
theorem splits_iff {cs : List Char} {ps : List Piece} : Splits cs ps ↔ ps = Piece.ofText cs :=
  ⟨Splits.eq_ofText, fun h => h ▸ splits_ofText cs⟩

theorem Splits.mem_of_char {cs : List Char} {ps : List Piece} (h : Splits cs ps) {c : Char}
    (hc : .char c ∈ ps) : c ∈ cs := by
  induction h with
  | nil => cases hc
  | literal _ _ _ ih =>
    rcases List.mem_cons.1 hc with heq | hc
    · cases heq
    · exact List.mem_cons_of_mem _ (List.mem_append_right _ (List.mem_cons_of_mem _ (ih hc)))
  | char _ _ ih =>
    rcases List.mem_cons.1 hc with heq | hc
    · cases heq
      exact List.mem_cons_self
    · exact List.mem_cons_of_mem _ (ih hc)

/-! ### The parentheses around a text -/

/-- A character that is no quote closes nothing at the end of a text. -/
theorem Splits.concat {cs : List Char} {ps : List Piece} (h : Splits cs ps) {d : Char}
    (hd : isQuote d = false) : Splits (cs ++ [d]) (ps ++ [.char d]) := by
  induction h with
  | nil => exact .char (fun hq => absurd hq (ne_true_of_eq_false hd)) .nil
  | literal hq hc _ ih =>
    rw [List.cons_append, List.append_assoc, List.cons_append]
    exact .literal hq hc ih
  | @char c rest ps hc _ ih =>
    refine .char (fun hq content after henc heq => ?_) ih
    -- the quote that closes stands before the end
    rcases List.eq_nil_or_concat' after with rfl | ⟨after, e, rfl⟩
    · obtain ⟨-, hlast⟩ := List.append_inj' heq rfl
      cases hlast
      exact absurd hq (ne_true_of_eq_false hd)
    · rw [← List.cons_append, ← List.append_assoc] at heq
      exact hc hq content after henc (List.append_inj' heq rfl).1

theorem ofText_parens (cs : List Char) :
    Piece.ofText ('(' :: cs ++ [')']) = .char '(' :: Piece.ofText cs ++ [.char ')'] := by
  rw [List.cons_append, Piece.ofText_char (by decide), List.cons_append,
    ← ((splits_ofText cs).concat (by decide)).eq_ofText]

/-- Tokens in parentheses. -/
def parens (ts : List Token) : List Token := .mark .opening :: ts ++ [.mark .closing]

theorem tokens_parens (cs : List Char) :
    Piece.tokens (Piece.ofText ('(' :: cs ++ [')']))
      = (Piece.tokens (Piece.ofText cs)).map parens := by
  rw [ofText_parens, List.cons_append]
  refine (tokens_mark .opening _).trans ?_
  rw [show Piece.char ')' = .char Mark.closing.char from rfl, Piece.tokens_append_mark]
  cases Piece.tokens (Piece.ofText cs) <;> rfl

theorem literals_parens (cs : List Char) :
    Piece.literals (Piece.ofText ('(' :: cs ++ [')'])) = Piece.literals (Piece.ofText cs) := by
  rw [ofText_parens, Piece.literals_append]
  exact List.append_nil _

theorem isClean_parens {cs : List Char} (h : nul ∉ cs) :
    ∀ p ∈ Piece.ofText ('(' :: cs ++ [')']), p.isClean = true := by
  intro p hp
  cases p with
  | literal s => rfl
  | char c =>
    have hc := (splits_ofText _).mem_of_char hp
    have hne : c ≠ nul := by
      rintro rfl
      simp only [List.cons_append, List.mem_cons, List.mem_append, List.not_mem_nil,
        or_false] at hc
      rcases hc with hc | hc | hc
      · exact absurd hc (by decide)
      · exact h hc
      · exact absurd hc (by decide)
    simpa [Piece.isClean] using hne

/-- **Masking is invisible.**  A text without NUL splits in one way into literals and characters,
and its tokens, or the first problem with them, are those of the runs between its marks.  A text
in which the number of a literal could have too many digits has more literals than any memory
holds. -/
theorem ofText_eq_direct {text : String} (h : nul ∉ text.toList) :
    ∃ ps, (∀ qs, Splits text.toList qs ↔ qs = ps)
      ∧ (Token.ofText text = (Piece.tokens ps).map parens
        ∨ 10 ^ Overlong.limit < (Piece.literals ps).length
          ∧ ∃ o, Token.ofText text = .error (.overlong o)) := by
  refine ⟨Piece.ofText text.toList, fun qs => splits_iff, ?_⟩
  have hsame := Piece.ofMasked_mask_sameUnless (isClean_parens h)
  rw [tokens_parens, literals_parens] at hsame
  exact hsame

/-- A keyed literal with a quote and marks inside, and a word of two parts. -/
def sampleText : String := "name: 'it\\'s, (x)', a b"

theorem ofText_eq_direct_sampleText :
    nul ∉ sampleText.toList ∧ Token.ofText sampleText = .ok [.mark .opening, .word "name",
      .mark .colon, .literal "it's, (x)", .mark .comma, .word "a b", .mark .closing] := by
  have hnul : nul ∉ sampleText.toList := by decide
  refine ⟨hnul, ?_⟩
  obtain ⟨ps, hsplits, h⟩ := ofText_eq_direct hnul
  obtain rfl : Piece.ofText sampleText.toList = ps := (hsplits _).1 (splits_ofText _)
  have htokens : Piece.tokens (Piece.ofText sampleText.toList) = .ok [.word "name",
      .mark .colon, .literal "it's, (x)", .mark .comma, .word "a b"] := by
    with_unfolding_all rfl
  have hfew : (Piece.literals (Piece.ofText sampleText.toList)).length ≤ 10 ^ Overlong.limit :=
    (Piece.length_literals_le _).trans
      ((show _ ≤ 10 ^ 2 by decide).trans (Nat.pow_le_pow_right (by decide) (by decide)))
  rw [h.resolve_right fun hmany => Nat.not_lt.2 hfew hmany.1, htokens]
  rfl

end DocDirective.Arguments
