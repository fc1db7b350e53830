import DocDirective.Proofs.Arguments.Direct

/-!
# Proofs — Arguments — Gap

A literal as a gap in what stands around it.  Pieces with a gap that is no key have tokens with a
gap, or the same problem whatever fills it (`tokens_gap`).  Masking does not look at what fills a
gap, so the tokens of a text are found with another literal in it wherever they are found at all
(`ofText_gap`).
-/

namespace DocDirective.Arguments

/-- The tokens behind a gap do not begin with a colon. -/
def Unkeyed (ts : List Token) : Prop := ts.head? ≠ some (.mark .colon)

namespace Piece

/-! ### A run with a gap -/

theorem trim_gap (front back : List Piece) (s : String) :
    trim (front ++ .literal s :: back)
      = front.dropWhile isBlank ++ .literal s :: (back.reverse.dropWhile isBlank).reverse := by
  have hdrop (ps qs : List Piece) : (ps ++ .literal s :: qs).dropWhile isBlank
      = ps.dropWhile isBlank ++ .literal s :: qs := by
    induction ps with
    | nil => rfl
    | cons p ps ih =>
      rw [List.cons_append, List.dropWhile_cons, List.dropWhile_cons, ih]
      split <;> rfl
  rw [trim, hdrop, List.reverse_append, List.reverse_cons, List.append_assoc,
    List.singleton_append, hdrop, List.reverse_append, List.reverse_cons, List.reverse_reverse,
    List.append_assoc, List.singleton_append]

theorem trimmedToken?_mixed {ps : List Piece} (hl : literals ps ≠ [])
    (hone : ∀ s, ps ≠ [.literal s]) : trimmedToken? ps = .error (.problem .runTogether) := by
  fun_cases trimmedToken? ps with
  | case1 => exact absurd rfl hl
  | case2 s => exact absurd rfl (hone s)
  | case3 _ _ _ hempty => exact absurd (List.isEmpty_iff.1 hempty) hl
  | case4 _ _ _ hempty => exact absurd (List.isEmpty_iff.1 hempty) hl
  | case5 => rfl

/-- A literal is a token where nothing but blanks stands beside it, and run together with other
text otherwise. -/
theorem token?_gap (front back : List Piece) :
    (∀ s, token? (front ++ .literal s :: back) = .error (.problem .runTogether))
      ∨ (∀ p ∈ back, p.isBlank = true)
        ∧ ∀ s, token? (front ++ .literal s :: back) = .ok (some (.literal s)) := by
  simp only [token?, trim_gap]
  have hliterals (s : String) : literals (front.dropWhile isBlank
      ++ .literal s :: (back.reverse.dropWhile isBlank).reverse) ≠ [] := by
    simp [literals]
  cases hfront : front.dropWhile isBlank with
  | cons p ps =>
    refine .inl fun s => trimmedToken?_mixed (hfront ▸ hliterals s) fun t ht => ?_
    simp at ht
  | nil =>
    cases hback : (back.reverse.dropWhile isBlank).reverse with
    | cons p ps =>
      refine .inl fun s => trimmedToken?_mixed (hback ▸ hfront ▸ hliterals s) fun t ht => ?_
      simp at ht
    | nil =>
      have hblank := List.dropWhile_eq_nil_iff.1 (List.reverse_eq_nil_iff.1 hback)
      exact .inr ⟨fun p hp => hblank p (List.mem_reverse.2 hp), fun s => rfl⟩

/-! ### Tokens with a gap -/

theorem unmarked_gap {front back : List Piece} (hfront : Unmarked front) (hback : Unmarked back)
    (s : String) : Unmarked (front ++ .literal s :: back) := by
  refine unmarked_append.2 ⟨hfront, fun c hc => ?_⟩
  exact (List.mem_cons.1 hc).elim (fun h => nomatch h) (hback c)

/-- A literal is no key where no colon follows it. -/
def NoColon (back : List Piece) : Prop :=
  (back.dropWhile isBlank).head? ≠ some (.char Mark.colon.char)

/-- Something with a gap that is a list of tokens, or the same failure whatever fills the gap. -/
def Gapped (x : String → Except Failure (List Token)) : Prop :=
  (∃ f, ∀ s, x s = .error f)
    ∨ ∃ before after, Unkeyed after ∧ ∀ s, x s = .ok (before ++ .literal s :: after)

theorem gapped_unmarked {front back : List Piece} (hfront : Unmarked front)
    (hback : Unmarked back) : Gapped fun s => tokens (front ++ .literal s :: back) := by
  have htokens (s : String) := tokens_unmarked (unmarked_gap hfront hback s)
  simp only [Gapped, htokens]
  obtain h | ⟨-, h⟩ := token?_gap front back
  · exact .inl ⟨_, fun s => by rw [h]; rfl⟩
  · exact .inr ⟨[], [], nofun, fun s => by rw [h]; rfl⟩

/-- Tokens with a gap have one too with a mark and other tokens behind. -/
theorem gapped_mark {front back : List Piece} {m : Mark} (hfront : Unmarked front)
    (hback : Unmarked back) (rest : List Piece) (hm : NoColon (back ++ .char m.char :: rest)) :
    Gapped fun s => tokens (front ++ .literal s :: back ++ .char m.char :: rest) := by
  have htokens (s : String) := tokens_unmarked (unmarked_gap hfront hback s)
  simp only [Gapped, tokens_append_mark, htokens]
  obtain h | ⟨hblank, h⟩ := token?_gap front back
  · exact .inl ⟨_, fun s => by rw [h]; rfl⟩
  · simp only [h]
    cases tokens rest with
    | error f => exact .inl ⟨f, fun s => rfl⟩
    | ok us =>
      refine .inr ⟨[], .mark m :: us, fun hhead => hm ?_, fun s => rfl⟩
      cases hhead
      rw [List.dropWhile_append_of_pos hblank]
      rfl

theorem gapped_of_unmarked {front : List Piece} (hfront : Unmarked front) {back : List Piece}
    (hback : NoColon back) : Gapped fun s => tokens (front ++ .literal s :: back) := by
  obtain h | ⟨run, m, rest, rfl, hrun⟩ := unmarked_or_first back
  · exact gapped_unmarked hfront h
  · have hgap := gapped_mark hfront hrun rest hback
    simpa using hgap

/-- **Pieces with a gap have tokens with a gap**, or the same problem whatever fills it. -/
theorem tokens_gap (front : List Piece) {back : List Piece} (hback : NoColon back) :
    Gapped fun s => tokens (front ++ .literal s :: back) := by
  -- the run of the gap begins behind the last mark in front of it
  obtain h | ⟨rest, m, run, rfl, hrun⟩ := unmarked_or_last front
  · exact gapped_of_unmarked h hback
  · have hgap := gapped_of_unmarked hrun hback
    simp only [Gapped, List.append_assoc, List.cons_append, tokens_append_mark]
    cases tokens rest with
    | error f => exact .inl ⟨f, fun s => rfl⟩
    | ok ts =>
      obtain ⟨f, h⟩ | ⟨before, after, hafter, h⟩ := hgap
      · simp only [h]
        exact .inl ⟨f, fun s => rfl⟩
      · simp only [h]
        refine .inr ⟨ts ++ .mark m :: before, after, hafter, fun s => ?_⟩
        rw [List.append_assoc, List.cons_append]
        rfl

/-! ### Colons behind a gap -/

/-- The literal with this behind it is no key, as its text tells. -/
theorem noColon_ofText {post : List Char}
    (h : (Text.trimStart post).head? ≠ some Mark.colon.char) : NoColon (ofText post) := by
  induction post with
  | nil =>
    rw [ofText]
    simp [NoColon]
  | cons c rest ih =>
    cases hc : Text.isBlank c with
    | true =>
      rw [Text.trimStart_cons_blank _ hc] at h
      rw [NoColon, ofText_char (isQuote_of_isBlank hc),
        List.dropWhile_cons_of_pos (show isBlank (.char c) = true from hc)]
      exact ih h
    | false =>
      rw [Text.trimStart_cons _ hc] at h
      obtain ⟨p, ps, hps, hblank, hp⟩ : ∃ p ps, ofText (c :: rest) = p :: ps ∧ isBlank p = false
          ∧ p ≠ .char Mark.colon.char := by
        have hchar : Piece.char c ≠ .char Mark.colon.char := fun heq =>
          h (congrArg some (Piece.char.inj heq))
        cases hq : isQuote c with
        | false => exact ⟨_, _, ofText_char hq, hc, hchar⟩
        | true =>
          cases hspan : spanLiteral c false rest with
          | none => exact ⟨_, _, ofText_open hq hspan, hc, hchar⟩
          | some r => exact ⟨_, _, ofText_literal hq hspan, rfl, fun h => by cases h⟩
      rw [NoColon, hps, List.dropWhile_cons_of_neg (ne_true_of_eq_false hblank)]
      exact fun heq => hp (Option.some.inj heq)

theorem noColon_closing {back : List Piece} (h : NoColon back) :
    NoColon (back ++ [.char Mark.closing.char]) := by
  rw [NoColon, List.dropWhile_append]
  cases hdrop : back.dropWhile isBlank with
  | nil =>
    rw [List.isEmpty_nil, if_pos rfl]
    decide
  | cons p ps =>
    rw [NoColon, hdrop] at h
    exact h

end Piece

/-! ### Success does not depend on the literals -/

section Success

variable {lits lits' : List String} (hlen : lits.length = lits'.length)

include hlen

theorem literalAt_succeeds {ds : List Nat} {s : String} (h : literalAt lits ds = .ok s) :
    ∃ s', literalAt lits' ds = .ok s' := by
  unfold literalAt at h ⊢
  split at h
  · cases h
  · rename_i hfew
    rw [if_neg hfew]
    split at h
    · rename_i hget
      have hlt := (List.getElem?_eq_some_iff.1 hget).1
      rw [List.getElem?_eq_getElem (hlen ▸ hlt)]
      exact ⟨_, rfl⟩
    · cases h

theorem Token.ofRun?_succeeds {run : List Char} {t : Option Token}
    (h : Token.ofRun? lits run = .ok t) : ∃ t', Token.ofRun? lits' run = .ok t' := by
  unfold Token.ofRun? at h ⊢
  dsimp only at h ⊢
  split_ifs at h ⊢ with hempty hnul hquote
  · exact ⟨_, rfl⟩
  · split at h
    · cases hs : literalAt lits _ with
      | error f =>
        rw [hs] at h
        cases h
      | ok s =>
        obtain ⟨s', hs'⟩ := literalAt_succeeds hlen hs
        rw [hs']
        exact ⟨_, rfl⟩
    · cases h
  · exact ⟨_, rfl⟩

theorem Token.ofRuns_succeeds {runs : List (Mark × List Char)} {ts : List Token}
    (h : Token.ofRuns lits runs = .ok ts) : ∃ ts', Token.ofRuns lits' runs = .ok ts' := by
  induction runs generalizing ts with
  | nil => exact ⟨[], rfl⟩
  | cons r runs ih =>
    obtain ⟨m, run⟩ := r
    obtain ⟨t, ht, h⟩ := exists_of_bind h
    obtain ⟨us, hus, -⟩ := exists_of_bind h
    obtain ⟨t', ht'⟩ := Token.ofRun?_succeeds hlen ht
    obtain ⟨us', hus'⟩ := ih hus
    rw [Token.ofRuns, ht', hus']
    exact ⟨_, rfl⟩

theorem Token.ofMasked_succeeds {cs : List Char} {ts : List Token}
    (h : Token.ofMasked ⟨cs, lits⟩ = .ok ts) : ∃ ts', Token.ofMasked ⟨cs, lits'⟩ = .ok ts' := by
  obtain ⟨t, ht, h⟩ := exists_of_bind h
  obtain ⟨us, hus, -⟩ := exists_of_bind h
  obtain ⟨t', ht'⟩ := Token.ofRun?_succeeds hlen ht
  obtain ⟨us', hus'⟩ := Token.ofRuns_succeeds hlen hus
  simp only [Token.ofMasked, ht', hus']
  exact ⟨_, rfl⟩

end Success

/-! ### A text with a gap -/

namespace Piece

/-- Masking writes a literal as its number. -/
theorem masked_gap (n : Nat) (front back : List Piece) (s d : String) :
    masked n (front ++ .literal s :: back) = masked n (front ++ .literal d :: back) := by
  rw [masked_append, masked_append]
  rfl

theorem length_literals_gap (front back : List Piece) (s d : String) :
    (literals (front ++ .literal s :: back)).length
      = (literals (front ++ .literal d :: back)).length := by
  rw [literals_append, literals_append, List.length_append, List.length_append]
  rfl

end Piece

/-- **A text with a gap in its pieces has tokens with a gap**, if it has tokens at all.  No quote
stands open in it. -/
theorem ofText_gap {text : String} {front back : List Piece} {s : String}
    (htext : Piece.ofText text.toList = front ++ .literal s :: back)
    (hclean : ∀ p ∈ front ++ back, p.isClean = true) (hback : Piece.NoColon back)
    {ts : List Token} (h : Token.ofText text = .ok ts) :
    (∀ p ∈ front, p.isOpenQuote = false) ∧ ∃ before after, Unkeyed after
      ∧ ts = before ++ .literal s :: after
      ∧ ∀ (d : String) (text' : String), Piece.ofText text'.toList = front ++ .literal d :: back →
        Token.ofText text' = .ok (before ++ .literal d :: after) := by
  -- all of it happens in the parentheses around the text
  have hpieces {text' : String} {d : String}
      (h : Piece.ofText text'.toList = front ++ .literal d :: back) :
      Piece.ofText ('(' :: text'.toList ++ [')'])
        = (.char '(' :: front) ++ .literal d :: (back ++ [.char Mark.closing.char]) := by
    rw [ofText_parens, h, List.cons_append, List.append_assoc]
    rfl
  have htokens {text' : String} {d : String} {ts : List Token}
      (hd : Piece.ofText text'.toList = front ++ .literal d :: back)
      (h : Token.ofText text' = .ok ts) : Piece.tokens
        ((.char '(' :: front) ++ .literal d :: (back ++ [.char Mark.closing.char])) = .ok ts := by
    have hparens : ∀ p ∈ Piece.ofText ('(' :: text'.toList ++ [')']), p.isClean = true := by
      intro p hp
      rw [hpieces hd] at hp
      simp only [List.mem_append, List.mem_cons, List.not_mem_nil, or_false] at hp hclean
      obtain (rfl | hp) | rfl | hp | rfl := hp
      · rfl
      · exact hclean p (.inl hp)
      · rfl
      · exact hclean p (.inr hp)
      · rfl
    have hsame := Piece.ofMasked_mask_sameUnless hparens
    rw [hpieces hd] at hsame
    obtain heq | ⟨-, o, ho⟩ := hsame
    · exact heq.symm.trans h
    · cases ho.symm.trans h
  have hall {text' : String} {d : String}
      (hd : Piece.ofText text'.toList = front ++ .literal d :: back) :
      ∃ ts', Token.ofText text' = .ok ts' := by
    rw [Token.ofText, Piece.mask_eq, hpieces htext, Piece.masked_gap _ _ _ s d] at h
    rw [Token.ofText, Piece.mask_eq, hpieces hd]
    exact Token.ofMasked_succeeds (Piece.length_literals_gap _ _ s d) h
  have hgap := Piece.tokens_gap (.char '(' :: front) (Piece.noColon_closing hback)
  refine ⟨fun p hp => ?_, ?_⟩
  · refine Piece.isOpenQuote_of_tokens (htokens htext h) (List.mem_append_left _ ?_)
    exact List.mem_cons_of_mem _ hp
  · obtain ⟨f, hf⟩ | ⟨before, after, hafter, hok⟩ := hgap
    · cases (hf s).symm.trans (htokens htext h)
    · refine ⟨before, after, hafter, ?_, fun d text' hd => ?_⟩
      · cases (hok s).symm.trans (htokens htext h)
        rfl
      · obtain ⟨ts', hts'⟩ := hall hd
        cases (hok d).symm.trans (htokens hd hts')
        exact hts'

end DocDirective.Arguments
