import DocDirective.Proofs.Arguments.Direct
import DocDirective.Proofs.Arguments.Runs

/-!
# Proofs — Arguments — Numbering

Which texts have tokens at all.  A literal is read back by its number, so the numbers of a text
that is read are small enough, and then its tokens are those of its pieces (`ofText_eq_ok_iff`).
-/

namespace DocDirective.Arguments

namespace Piece

theorem lt_of_literalAt {lits : List String} {n : Nat} {s : String}
    (h : literalAt lits ((Nat.toDigits 10 n).map Numeral.digitOf) = .ok s) :
    n < 10 ^ Overlong.limit := by
  have hdigits : (Nat.toDigits 10 n).length ≤ Overlong.limit ↔ n < 10 ^ Overlong.limit :=
    Nat.length_toDigits_le_iff (by decide) (by decide)
  unfold literalAt at h
  rw [List.length_map] at h
  split at h
  · cases h
  · omega

/-- A run with a token is one literal, or has none. -/
theorem literals_of_trimmedToken? {ps : List Piece} {t : Option Token}
    (h : trimmedToken? ps = .ok t) : literals ps = [] ∨ ∃ s, ps = [.literal s] := by
  revert h
  fun_cases trimmedToken? ps with
  | case1 => exact fun _ => .inl rfl
  | case2 s => exact fun _ => .inr ⟨s, rfl⟩
  | case3 =>
    intro h
    cases h
  | case4 _ _ _ hempty => exact fun _ => .inl (List.isEmpty_iff.1 hempty)
  | case5 =>
    intro h
    cases h

/-- The numbers of the literals in a run that is read are small enough to be read back. -/
theorem number_le_of_ofRun? {lits more : List String} {n : Nat} {run : List Piece}
    (hc : ∀ p ∈ run, p.isClean = true) (hl : lits.drop n = literals run ++ more)
    (hn : n ≤ 10 ^ Overlong.limit) {t : Option Token}
    (h : Token.ofRun? lits (masked n run) = .ok t) :
    n + (literals run).length ≤ 10 ^ Overlong.limit := by
  have htrim : Text.trim (masked n (trim run)) = masked n (trim run) := by
    rw [← trim_masked, Text.trim_trim]
  rw [Token.ofRun?_congr lits (s := masked n (trim run)) (by rw [htrim, trim_masked])] at h
  have hsame := ofRun?_trimmed (fun p hp => hc p (mem_of_mem_trim hp))
    (by rw [literals_trim]; exact hl) htrim
  have htoken : trimmedToken? (trim run) = .ok t := by
    rcases hsame with heq | ⟨-, o, ho⟩
    · exact heq.symm.trans h
    · cases ho.symm.trans h
  rw [← literals_trim]
  rcases literals_of_trimmedToken? htoken with hnone | ⟨s, hs⟩
  · rw [hnone]
    exact hn
  · -- a literal alone: its number has few digits
    rw [hs] at h htrim ⊢
    have hempty := isEmpty_masked n (List.cons_ne_nil (Piece.literal s) [])
    have hclean : ∀ p ∈ [Piece.literal s], p.isClean = true := by simp [isClean]
    have hnul := contains_nul_masked n hclean
    unfold Token.ofRun? at h
    simp only [htrim, hnul] at h
    simp only [masked, List.append_nil] at h hempty
    rw [hempty, placeholderDigits?_placeholder] at h
    simp only [literals, List.isEmpty_cons, Bool.not_false, if_true,
      Bool.false_eq_true, if_false] at h
    cases hat : literalAt lits ((Nat.toDigits 10 n).map Numeral.digitOf) with
    | error f =>
      rw [hat] at h
      cases h
    | ok u => exact lt_of_literalAt hat

theorem number_le_of_ofRuns {lits : List String} {n : Nat} {runs : List (Mark × List Piece)}
    (hc : ∀ r ∈ runs, ∀ p ∈ r.2, p.isClean = true)
    (hl : lits.drop n = runs.flatMap fun r => literals r.2) (hn : n ≤ 10 ^ Overlong.limit)
    {ts : List Token} (h : Token.ofRuns lits (maskedRuns n runs) = .ok ts) :
    n + (runs.flatMap fun r => literals r.2).length ≤ 10 ^ Overlong.limit := by
  induction runs generalizing n ts with
  | nil => exact hn
  | cons r runs ih =>
    obtain ⟨m, run⟩ := r
    rw [List.forall_mem_cons] at hc
    rw [List.flatMap_cons] at hl
    obtain ⟨t, ht, h⟩ := exists_of_bind h
    obtain ⟨us, hus, -⟩ := exists_of_bind h
    have hlast := ih hc.2 (drop_add_of_append hl) (number_le_of_ofRun? hc.1 hl hn ht) hus
    rwa [List.flatMap_cons, List.length_append, ← Nat.add_assoc]

theorem length_literals_le_of_ofMasked {cs : List Char} (hc : ∀ p ∈ ofText cs, p.isClean = true)
    {ts : List Token} (h : Token.ofMasked (mask cs) = .ok ts) :
    (literals (ofText cs)).length ≤ 10 ^ Overlong.limit := by
  have hl := literals_cut (ofText cs)
  rw [Token.ofMasked_eq, mask_eq, cut_masked] at h
  obtain ⟨t, ht, h⟩ := exists_of_bind h
  obtain ⟨us, hus, -⟩ := exists_of_bind h
  have hfirst := number_le_of_ofRun? (n := 0) (fun p hp => hc p (mem_cut.1 hp)) hl
    (Nat.zero_le _) ht
  have hruns := number_le_of_ofRuns (fun r hr p hp => hc p (mem_cut.2 r hr hp))
    (drop_add_of_append (n := 0) hl) hfirst hus
  rwa [hl, List.length_append, ← Nat.zero_add (literals (cut (ofText cs)).1).length]

end Piece

theorem parens_inj {ts us : List Token} (h : parens ts = parens us) : ts = us :=
  (List.append_inj' (List.cons.inj h).2 rfl).1

/-- How many literals a text has. -/
def literalCount (text : String) : Nat := (Piece.literals (Piece.ofText text.toList)).length

section Count

variable {text : String} (hnul : nul ∉ text.toList) {ts : List Token}

include hnul

/-- A text without NUL has the tokens of its pieces, in parentheses, if its literals are no more
than the numbers that can be read back, and none otherwise. -/
theorem ofText_eq_ok_iff : Token.ofText text = .ok ts ↔ literalCount text ≤ 10 ^ Overlong.limit
    ∧ ∃ us, Piece.tokens (Piece.ofText text.toList) = .ok us ∧ ts = parens us := by
  have hclean := isClean_parens hnul
  have hsame := Piece.ofMasked_mask_sameUnless hclean
  rw [tokens_parens, literals_parens] at hsame
  constructor
  · intro h
    have hfew := Piece.length_literals_le_of_ofMasked hclean h
    rw [literals_parens] at hfew
    rw [Token.ofText, hsame.resolve_right fun hmany => Nat.not_lt.2 hfew hmany.1] at h
    cases hus : Piece.tokens (Piece.ofText text.toList) with
    | error f =>
      rw [hus] at h
      cases h
    | ok us =>
      rw [hus] at h
      cases h
      exact ⟨hfew, us, rfl, rfl⟩
  · rintro ⟨hfew, us, hus, rfl⟩
    rw [Token.ofText, hsame.resolve_right fun hmany => Nat.not_lt.2 hfew hmany.1, hus]
    rfl

theorem ofText_overlong (hts : Piece.tokens (Piece.ofText text.toList) = .ok ts)
    (hmany : 10 ^ Overlong.limit < literalCount text) :
    ∃ o, Token.ofText text = .error (.overlong o) := by
  have hsame := Piece.ofMasked_mask_sameUnless (isClean_parens hnul)
  rw [tokens_parens, literals_parens, hts] at hsame
  rcases hsame with hok | ⟨-, ho⟩
  · exact absurd ((ofText_eq_ok_iff hnul).1 hok).1 (Nat.not_le.2 hmany)
  · exact ho

end Count

end DocDirective.Arguments
