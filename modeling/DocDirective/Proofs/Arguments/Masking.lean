import DocDirective.Proofs.Arguments.Piece
import DocDirective.Proofs.Arguments.Tightening
import DocDirective.Proofs.Number.Digits

/-!
# Proofs — Arguments — Masking

Masking is a detour.  The tokens of a masked text are those of the pieces of the text, where no NUL
stands outside the literals, so that a placeholder is never mistaken.  The detour shows at one
place only: the number of a literal is written in digits, and a text with more literals than there
are numbers of few enough digits cannot be read back (`SameUnless`).
-/

namespace DocDirective.Arguments

/-! ### Readings that come to the same -/

/-- The first reading comes to the same as the second, unless the text is crowded and a number in
it has too many digits. -/
def SameUnless {α : Type} (crowded : Prop) (x y : Except Failure α) : Prop :=
  x = y ∨ crowded ∧ ∃ o, x = .error (.overlong o)

theorem SameUnless.bind {α β : Type} {crowded : Prop} {x y : Except Failure α}
    {f g : α → Except Failure β} (h : SameUnless crowded x y)
    (hfg : ∀ a, SameUnless crowded (f a) (g a)) : SameUnless crowded (x >>= f) (y >>= g) := by
  rcases h with rfl | ⟨hc, o, rfl⟩
  · cases x with
    | error e => exact .inl rfl
    | ok a => exact hfg a
  · exact .inr ⟨hc, o, rfl⟩

/-! ### Masked runs -/

theorem cut_append_plain {xs : List Char} (cs : List Char)
    (h : ∀ c ∈ xs, Mark.ofChar? c = none) : cut (xs ++ cs) = (xs ++ (cut cs).1, (cut cs).2) := by
  induction xs with
  | nil => rfl
  | cons x xs ih =>
    rw [List.forall_mem_cons] at h
    rw [List.cons_append, cut_plain _ h.1, ih h.2]
    rfl

theorem mem_placeholder {n : Nat} {c : Char} (h : c ∈ placeholder n) : c = nul ∨ c.isDigit := by
  rcases List.mem_append.1 h with h | h
  · rcases List.mem_cons.1 h with rfl | h
    · exact .inl rfl
    · exact .inr (Numeral.isDigit_of_mem_toDigits h)
  · exact .inl (List.mem_singleton.1 h)

theorem Mark.ofChar?_of_isDigit {c : Char} (h : c.isDigit = true) : Mark.ofChar? c = none := by
  refine Mark.ofChar?_eq_none ?_
  rintro m rfl
  cases m <;> exact absurd h (by decide)

theorem ofChar?_of_mem_placeholder {n : Nat} {c : Char} (h : c ∈ placeholder n) :
    Mark.ofChar? c = none := by
  rcases mem_placeholder h with rfl | h
  · rfl
  · exact Mark.ofChar?_of_isDigit h

namespace Piece

/-- Marks and the masked runs behind them; the first literal gets the number `n`. -/
def maskedRuns (n : Nat) : List (Mark × List Piece) → List (Mark × List Char)
  | []             => []
  | (m, r) :: rest => (m, masked n r) :: maskedRuns (n + (literals r).length) rest

theorem cut_masked (n : Nat) (ps : List Piece) :
    Arguments.cut (masked n ps)
      = (masked n (cut ps).1, maskedRuns (n + (literals (cut ps).1).length) (cut ps).2) := by
  induction ps generalizing n with
  | nil => rfl
  | cons p ps ih =>
    cases p with
    | char c =>
      rw [masked, cut]
      cases hm : Mark.ofChar? c with
      | some m => rw [cut_mark _ hm, ih]; rfl
      | none => rw [cut_plain _ hm, ih]; rfl
    | literal s =>
      rw [masked, cut_append_plain _ fun c hc => ofChar?_of_mem_placeholder hc, ih, cut]
      simp only [masked, literals, List.length_cons, Prod.mk.injEq, true_and]
      congr 1
      omega

theorem literals_cut (ps : List Piece) :
    literals ps = literals (cut ps).1 ++ (cut ps).2.flatMap fun r => literals r.2 := by
  induction ps with
  | nil => rfl
  | cons p ps ih =>
    cases p with
    | char c =>
      rw [cut]
      cases hm : Mark.ofChar? c with
      | some m => simpa [literals] using ih
      | none => simpa [literals] using ih
    | literal s => simpa [literals, cut] using ih

theorem trimStart_masked (n : Nat) (ps : List Piece) :
    Text.trimStart (masked n ps) = masked n (ps.dropWhile isBlank) := by
  induction ps generalizing n with
  | nil => rfl
  | cons p ps ih =>
    cases p with
    | char c =>
      cases hc : Text.isBlank c with
      | true =>
        rw [masked, Text.trimStart_cons_blank _ hc, ih,
          List.dropWhile_cons_of_pos (show isBlank (.char c) = true from hc)]
      | false =>
        rw [masked, Text.trimStart_cons _ hc, List.dropWhile_cons_of_neg (by simp [isBlank, hc])]
        rfl
    | literal s =>
      rw [List.dropWhile_cons_of_neg (by simp [isBlank])]
      exact Text.trimStart_cons _ (by decide)

theorem trimEnd_masked (n : Nat) (ps : List Piece) :
    Text.trimEnd (masked n ps) = masked n (ps.reverse.dropWhile isBlank).reverse := by
  induction ps using List.reverseRecOn with
  | nil => rfl
  | append_singleton ps p ih =>
    rw [List.reverse_append, List.reverse_singleton, List.singleton_append, masked_append]
    cases p with
    | char c =>
      simp only [masked]
      rw [Text.trimEnd_concat]
      cases hc : Text.isBlank c with
      | true =>
        rw [if_pos rfl, ih, List.dropWhile_cons_of_pos (show isBlank (.char c) = true from hc)]
      | false =>
        rw [if_neg Bool.false_ne_true, List.dropWhile_cons_of_neg (by simp [isBlank, hc])]
        simp [masked_append, masked]
    | literal s =>
      rw [List.dropWhile_cons_of_neg (by simp [isBlank])]
      simp only [masked, placeholder, List.append_nil, ← List.append_assoc]
      rw [Text.trimEnd_concat, if_neg (by decide)]
      simp [masked_append, masked, placeholder]

theorem trim_masked (n : Nat) (ps : List Piece) : Text.trim (masked n ps) = masked n (trim ps) := by
  rw [Text.trim, trimStart_masked, trimEnd_masked]
  rfl

/-! ### Tokens of masked runs -/

theorem masked_eq_chars (n : Nat) {ps : List Piece} (h : literals ps = []) :
    masked n ps = chars ps := by
  induction ps with
  | nil => rfl
  | cons p ps ih =>
    cases p with
    | char c => rw [masked, chars, ih h]
    | literal s => cases h

theorem any_isQuote_chars {ps : List Piece} : (chars ps).any isQuote = ps.any isOpenQuote := by
  induction ps with
  | nil => rfl
  | cons p ps ih => cases p <;> simp [chars, isOpenQuote, ih]

theorem mem_chars {ps : List Piece} {c : Char} (h : c ∈ chars ps) : .char c ∈ ps := by
  induction ps with
  | nil => cases h
  | cons p ps ih =>
    cases p with
    | char d =>
      rcases List.mem_cons.1 h with rfl | h
      · exact List.mem_cons_self
      · exact List.mem_cons_of_mem _ (ih h)
    | literal s => exact List.mem_cons_of_mem _ (ih h)

/-- Where no NUL stands outside the literals, the NULs of a masked text are its placeholders. -/
theorem contains_nul_masked (n : Nat) {ps : List Piece} (hc : ∀ p ∈ ps, p.isClean = true) :
    (masked n ps).contains nul = !(literals ps).isEmpty := by
  cases hl : literals ps with
  | nil =>
    rw [masked_eq_chars n hl, List.isEmpty_nil, Bool.not_true, ← Bool.not_eq_true,
      List.contains_iff_mem]
    intro h
    simpa [isClean] using hc _ (mem_chars h)
  | cons s ss =>
    -- the first placeholder begins with a NUL, whatever stands in front of it
    rw [List.isEmpty_cons, Bool.not_false, List.contains_iff_mem]
    clear hc
    induction ps generalizing n with
    | nil => cases hl
    | cons p ps ih =>
      cases p with
      | char c => exact List.mem_cons_of_mem _ (ih n hl)
      | literal t => simp [masked, placeholder]

theorem endsDigits_nul (cs : List Char) : Numeral.EndsDigits (nul :: cs) :=
  Numeral.endsDigits_cons (by decide)

theorem spanDigits_placeholder (n : Nat) (cs : List Char) :
    Numeral.spanDigits (Nat.toDigits 10 n ++ nul :: cs)
      = ((Nat.toDigits 10 n).map Numeral.digitOf, nul :: cs) :=
  Numeral.spanDigits_append (fun _ hc => Numeral.isDigit_of_mem_toDigits hc) (endsDigits_nul cs)

theorem placeholderDigits?_placeholder (n : Nat) :
    placeholderDigits? (placeholder n) = some ((Nat.toDigits 10 n).map Numeral.digitOf) := by
  have hspan := spanDigits_placeholder n []
  obtain ⟨d, ds, hds⟩ := List.exists_cons_of_ne_nil (Nat.toDigits_ne_nil (n := n) (b := 10))
  rw [hds, List.cons_append, List.map_cons] at hspan
  unfold placeholderDigits? placeholder
  simp only [hds, List.cons_append, if_pos, hspan, List.map_cons]

/-- A run that is more than one literal is no placeholder. -/
theorem placeholderDigits?_longer (n : Nat) (cs : List Char) {c : Char} :
    placeholderDigits? (placeholder n ++ c :: cs) = none := by
  unfold placeholderDigits? placeholder
  simp [spanDigits_placeholder]

theorem placeholderDigits?_char {c : Char} (cs : List Char) (hc : c ≠ nul) :
    placeholderDigits? (c :: cs) = none := by
  rw [placeholderDigits?, if_neg hc]

theorem exists_masked_cons (n : Nat) (p : Piece) (ps : List Piece) :
    ∃ c cs, masked n (p :: ps) = c :: cs := by
  cases p with
  | char c => exact ⟨c, _, rfl⟩
  | literal s => exact ⟨nul, _, rfl⟩

theorem isEmpty_masked (n : Nat) {ps : List Piece} (h : ps ≠ []) :
    (masked n ps).isEmpty = false := by
  obtain ⟨p, ps, rfl⟩ := List.exists_cons_of_ne_nil h
  obtain ⟨c, cs, hcs⟩ := exists_masked_cons n p ps
  rw [hcs, List.isEmpty_cons]

/-- The number of a literal finds it again, unless it has too many digits. -/
theorem literalAt_digits {lits : List String} {n : Nat} {s : String} (h : lits[n]? = some s) :
    SameUnless (10 ^ Overlong.limit < lits.length)
      (literalAt lits ((Nat.toDigits 10 n).map Numeral.digitOf)) (.ok s) := by
  have hlt : n < lits.length := (List.getElem?_eq_some_iff.1 h).1
  have hdigits : (Nat.toDigits 10 n).length ≤ Overlong.limit ↔ n < 10 ^ Overlong.limit :=
    Nat.length_toDigits_le_iff (by decide) (by decide)
  unfold literalAt
  rw [List.length_map]
  split
  · exact .inr ⟨by omega, _, rfl⟩
  · rw [Numeral.ofDigits_toDigits, h]
    exact .inl rfl

theorem placeholderDigits?_mixed (n : Nat) {ps : List Piece} (hc : ∀ p ∈ ps, p.isClean = true)
    (h : ∀ s, ps ≠ [.literal s]) : placeholderDigits? (masked n ps) = none := by
  match ps with
  | [] => rfl
  | .char c :: ps =>
    have hclean := hc _ List.mem_cons_self
    exact placeholderDigits?_char _ (by simpa [isClean] using hclean)
  | [.literal s] => exact absurd rfl (h s)
  | .literal s :: p :: ps =>
    obtain ⟨c, cs, hcs⟩ := exists_masked_cons (n + 1) p ps
    rw [masked, hcs]
    exact placeholderDigits?_longer n cs

/-- The token of a trimmed run is the token of its masked text. -/
theorem ofRun?_trimmed {lits more : List String} {n : Nat} {ps : List Piece}
    (hc : ∀ p ∈ ps, p.isClean = true) (hl : lits.drop n = literals ps ++ more)
    (ht : Text.trim (masked n ps) = masked n ps) :
    SameUnless (10 ^ Overlong.limit < lits.length) (Token.ofRun? lits (masked n ps))
      (trimmedToken? ps) := by
  unfold Token.ofRun?
  simp only [ht, contains_nul_masked n hc]
  fun_cases trimmedToken? ps with
  | case1 => exact .inl rfl
  | case2 s =>
    -- a literal alone: its number finds it again
    have hget : lits[n]? = some s := by
      rw [← List.head?_drop, hl]
      rfl
    have hempty := isEmpty_masked n (List.cons_ne_nil (Piece.literal s) [])
    simp only [masked, List.append_nil] at hempty ⊢
    rw [hempty, placeholderDigits?_placeholder]
    rcases literalAt_digits hget with h | ⟨hcrowded, o, h⟩
    · simp only [h]
      exact .inl rfl
    · simp only [h]
      exact .inr ⟨hcrowded, o, rfl⟩
  | case3 _ hnil _ hempty hquote =>
    -- no literals, and an open quote
    rw [isEmpty_masked n hnil, hempty, masked_eq_chars n (List.isEmpty_iff.1 hempty),
      any_isQuote_chars, hquote]
    exact .inl rfl
  | case4 _ hnil _ hempty hquote =>
    rw [isEmpty_masked n hnil, hempty, masked_eq_chars n (List.isEmpty_iff.1 hempty),
      any_isQuote_chars, if_neg hquote]
    exact .inl rfl
  | case5 _ hnil hone hempty =>
    -- literals among other things: a NUL, but no placeholder
    rw [isEmpty_masked n hnil, placeholderDigits?_mixed n hc hone,
      Bool.eq_false_of_not_eq_true hempty]
    exact .inl rfl

theorem literals_trim (ps : List Piece) : literals (trim ps) = literals ps := by
  have hdrop (qs : List Piece) : literals (qs.dropWhile isBlank) = literals qs := by
    induction qs with
    | nil => rfl
    | cons q qs ih =>
      cases q with
      | char c => rw [List.dropWhile_cons]; split <;> simp [literals, ih]
      | literal s => rfl
  have hrev (qs : List Piece) : literals qs.reverse = (literals qs).reverse := by
    induction qs with
    | nil => rfl
    | cons q qs ih => cases q <;> simp [literals, ih]
  rw [trim, hrev, hdrop, hrev, hdrop, List.reverse_reverse]

theorem mem_of_mem_trim {ps : List Piece} {p : Piece} (h : p ∈ trim ps) : p ∈ ps := by
  have h' := (List.dropWhile_sublist _).subset (List.mem_reverse.1 h)
  exact (List.dropWhile_sublist _).subset (List.mem_reverse.1 h')

theorem ofRun?_masked {lits more : List String} {n : Nat} {run : List Piece}
    (hc : ∀ p ∈ run, p.isClean = true) (hl : lits.drop n = literals run ++ more) :
    SameUnless (10 ^ Overlong.limit < lits.length) (Token.ofRun? lits (masked n run))
      (token? run) := by
  have htrim : Text.trim (masked n (trim run)) = masked n (trim run) := by
    rw [← trim_masked, Text.trim_trim]
  have hrun : Token.ofRun? lits (masked n run) = Token.ofRun? lits (masked n (trim run)) :=
    Token.ofRun?_congr lits (by rw [htrim, trim_masked])
  rw [hrun]
  exact ofRun?_trimmed (fun p hp => hc p (mem_of_mem_trim hp)) (by rw [literals_trim]; exact hl)
    htrim

theorem drop_add_of_append {α : Type} {l xs ys : List α} {n : Nat} (h : l.drop n = xs ++ ys) :
    l.drop (n + xs.length) = ys := by
  rw [← List.drop_drop, h, List.drop_left]

theorem ofRuns_masked {lits : List String} {n : Nat} {runs : List (Mark × List Piece)}
    (hc : ∀ r ∈ runs, ∀ p ∈ r.2, p.isClean = true)
    (hl : lits.drop n = runs.flatMap fun r => literals r.2) :
    SameUnless (10 ^ Overlong.limit < lits.length) (Token.ofRuns lits (maskedRuns n runs))
      (tokensOfRuns runs) := by
  induction runs generalizing n with
  | nil => exact .inl rfl
  | cons r runs ih =>
    obtain ⟨m, run⟩ := r
    rw [List.forall_mem_cons] at hc
    rw [List.flatMap_cons] at hl
    rw [maskedRuns, Token.ofRuns, tokensOfRuns]
    exact (ofRun?_masked hc.1 hl).bind fun _ =>
      (ih hc.2 (drop_add_of_append hl)).bind fun _ => .inl rfl

theorem mem_cut {ps : List Piece} {p : Piece} :
    (p ∈ (cut ps).1 → p ∈ ps) ∧ ∀ r ∈ (cut ps).2, p ∈ r.2 → p ∈ ps := by
  induction ps with
  | nil => simp [cut]
  | cons q ps ih =>
    obtain ⟨hfirst, hruns⟩ := ih
    cases q with
    | literal s => simp_all [cut]; tauto
    | char c =>
      rw [cut]
      cases hm : Mark.ofChar? c with
      | some m => simp; tauto
      | none => simp; tauto

/-- The tokens of a masked text are those of the pieces, where no NUL stands outside the literals,
unless there are more literals than numbers that can be read back. -/
theorem ofMasked_mask_sameUnless {cs : List Char} (hc : ∀ p ∈ ofText cs, p.isClean = true) :
    SameUnless (10 ^ Overlong.limit < (literals (ofText cs)).length) (Token.ofMasked (mask cs))
      (tokens (ofText cs)) := by
  have hl := literals_cut (ofText cs)
  have hdrop := drop_add_of_append (n := 0) hl
  have hfirst := ofRun?_masked (n := 0) (fun p hp => hc p (mem_cut.1 hp)) hl
  have hruns := ofRuns_masked (fun r hr p hp => hc p (mem_cut.2 r hr hp)) hdrop
  rw [Token.ofMasked_eq, mask_eq, cut_masked, tokens]
  exact hfirst.bind fun _ => hruns.bind fun _ => .inl rfl

/-- The tokens of a masked text that is short enough are those of the pieces. -/
theorem ofMasked_mask {cs : List Char} (hc : ∀ p ∈ ofText cs, p.isClean = true)
    (hn : cs.length ≤ 10 ^ Overlong.limit) :
    Token.ofMasked (mask cs) = tokens (ofText cs) := by
  have hlen := (length_literals_le cs).trans hn
  exact (ofMasked_mask_sameUnless hc).resolve_right fun h => Nat.not_lt.2 hlen h.1

end Piece

end DocDirective.Arguments
