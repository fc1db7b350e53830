import DocDirective.Number.Numeral
import Mathlib.Data.List.Induction
import Mathlib.Tactic.Ring

/-!
# Proofs — Number — Digits

Numbers are written with the ASCII digits.  A row of them is read digit by digit up to the first
character that is no digit of any script, and stands for the number it was written for; so a whole
number reads back from its own text.
-/

namespace DocDirective.Numeral

/-! ### One digit -/

/-- The value of an ASCII digit. -/
def digitOf (c : Char) : Nat := c.toNat - 48

theorem toNat_of_isDigit {c : Char} (h : c.isDigit = true) : 48 ≤ c.toNat ∧ c.toNat ≤ 57 := by
  simp only [Char.isDigit, Bool.and_eq_true, decide_eq_true_eq] at h
  exact ⟨h.1, h.2⟩

theorem digitValue?_of_isDigit {c : Char} (h : c.isDigit = true) :
    Text.digitValue? c = some (digitOf c) := by
  obtain ⟨h₁, h₂⟩ := toNat_of_isDigit h
  simp [Text.digitValue?, Text.digitZeros, digitOf, h₁, h₂]

/-- The text does not go on with a digit. -/
def EndsDigits (cs : List Char) : Prop := ∀ c ∈ cs.head?, Text.digitValue? c = none

theorem endsDigits_nil : EndsDigits [] := by simp [EndsDigits]

theorem endsDigits_cons {c : Char} {cs : List Char} (h : Text.digitValue? c = none) :
    EndsDigits (c :: cs) := by
  simpa [EndsDigits] using h

/-! ### Rows of digits -/

theorem spanDigits_of_endsDigits {cs : List Char} (h : EndsDigits cs) :
    spanDigits cs = ([], cs) := by
  cases cs with
  | nil => rfl
  | cons c cs => rw [spanDigits, h c rfl]

theorem spanDigits_append {ds rest : List Char} (hd : ∀ c ∈ ds, c.isDigit = true)
    (hr : EndsDigits rest) : spanDigits (ds ++ rest) = (ds.map digitOf, rest) := by
  induction ds with
  | nil => exact spanDigits_of_endsDigits hr
  | cons d ds ih =>
    rw [List.forall_mem_cons] at hd
    rw [List.cons_append, spanDigits, digitValue?_of_isDigit hd.1, ih hd.2]
    rfl

theorem spanDigits_all {ds : List Char} (hd : ∀ c ∈ ds, c.isDigit = true) :
    spanDigits ds = (ds.map digitOf, []) := by
  simpa using spanDigits_append hd endsDigits_nil

theorem ofDigits_map_digitOf (ds : List Char) :
    ofDigits (ds.map digitOf) = Nat.ofDigitChars 10 ds 0 := by
  simp only [ofDigits, Nat.ofDigitChars_eq_foldl, List.foldl_map, digitOf]
  rfl

theorem ofDigits_append (xs ys : List Nat) :
    ofDigits (xs ++ ys) = ofDigits xs * 10 ^ ys.length + ofDigits ys := by
  induction ys using List.reverseRecOn with
  | nil => simp [ofDigits]
  | append_singleton ys d ih =>
    simp only [ofDigits, ← List.append_assoc, List.foldl_append, List.foldl_cons,
      List.foldl_nil] at ih ⊢
    rw [ih, List.length_append, List.length_singleton, Nat.pow_succ]
    ring

/-- A row of digits stands for less than the power of ten with as many zeros. -/
theorem ofDigits_lt {ds : List Nat} (h : ∀ d ∈ ds, d < 10) : ofDigits ds < 10 ^ ds.length := by
  induction ds using List.reverseRecOn with
  | nil => simp [ofDigits]
  | append_singleton ds d ih =>
    have hd : d < 10 := h d (by simp)
    have hds := ih fun x hx => h x (by simp [hx])
    rw [ofDigits_append, List.length_append, List.length_singleton, Nat.pow_succ,
      show ofDigits [d] = d by simp [ofDigits]]
    omega

theorem ofDigits_replicate_zero (n : Nat) : ofDigits (List.replicate n 0) = 0 := by
  induction n with
  | zero => rfl
  | succ n ih => rw [List.replicate_succ', ofDigits_append, ih]; rfl

theorem ofDigits_toDigits (n : Nat) : ofDigits ((Nat.toDigits 10 n).map digitOf) = n := by
  rw [ofDigits_map_digitOf, Nat.ofDigitChars_ten_toDigits]

theorem isDigit_of_mem_toDigits {n : Nat} {c : Char} (h : c ∈ Nat.toDigits 10 n) :
    c.isDigit = true :=
  Nat.isDigit_of_mem_toDigits (by decide) (by decide) h

/-! ### Whole numbers -/

theorem spanSign_of_isDigit {c : Char} (h : c.isDigit = true) (cs : List Char) :
    spanSign (c :: cs) = (false, c :: cs) := by
  unfold spanSign
  split
  · rename_i heq
    cases heq
    simp at h
  · rename_i heq
    cases heq
    simp at h
  · rfl

/-- A sign in front of a digit is read as that sign. -/
theorem spanSign_signed (negative : Bool) {c : Char} (h : c.isDigit = true) (cs : List Char) :
    spanSign ((if negative then ['-'] else []) ++ c :: cs) = (negative, c :: cs) := by
  cases negative with
  | false => simpa using spanSign_of_isDigit h cs
  | true => rfl

/-- The digits of a number with a sign in front read as a whole number. -/
theorem read?_toDigits (negative : Bool) (n : Nat) :
    read? ((if negative then ['-'] else []) ++ Nat.toDigits 10 n)
      = some ⟨negative, (Nat.toDigits 10 n).map digitOf, none, none⟩ := by
  have hd : ∀ c ∈ Nat.toDigits 10 n, c.isDigit = true := fun c hc => isDigit_of_mem_toDigits hc
  obtain ⟨c, cs, hcs⟩ := List.exists_cons_of_ne_nil (Nat.toDigits_ne_nil (n := n) (b := 10))
  have hs := spanSign_signed negative (hd c (by simp [hcs])) cs
  rw [← hcs] at hs
  unfold read?
  simp only [hs, spanDigits_all hd]
  simp [finish?, hcs]

/-- A whole number reads back from its text, with the digits it was written with. -/
theorem read?_intChars (n : Int) :
    read? (intChars n) = some ⟨n < 0, (Nat.toDigits 10 n.natAbs).map digitOf, none, none⟩ := by
  simpa [intChars] using read?_toDigits (n < 0) n.natAbs

theorem toList_of_intText {n : Int} {s : String} (h : intText n = .ok s) :
    s.toList = intChars n := by
  unfold intText at h
  split at h
  · cases h
  · cases h
    exact String.toList_ofList

theorem toList_ne_nil_of_intText {n : Int} {s : String} (h : intText n = .ok s) :
    s.toList ≠ [] := by
  rw [toList_of_intText h]
  exact List.append_ne_nil_of_right_ne_nil _ Nat.toDigits_ne_nil

/-- A whole number that can be written is the value of its text. -/
theorem toInt_of_intText {n : Int} {s : String} (h : intText n = .ok s) :
    ∃ m, read? s.toList = some m ∧ m.isWhole = true ∧ m.toInt = .ok n := by
  unfold intText at h
  split at h
  · simp at h
  · rename_i hlen
    simp only [Except.ok.injEq] at h
    subst h
    refine ⟨_, by simpa using read?_intChars n, rfl, ?_⟩
    simp only [toInt, List.length_map, if_neg hlen, ofDigits_toDigits, Except.ok.injEq,
      decide_eq_true_eq]
    split <;> omega

theorem intText_of_natAbs_lt {n : Int} (h : n.natAbs < 10 ^ Overlong.limit) :
    ∃ s, intText n = .ok s := by
  have hl := (Nat.length_toDigits_le_iff (by decide) (by decide)).2 h
  exact ⟨_, by rw [intText, if_neg (by omega)]⟩

/-- A whole number can be written exactly if it has no more digits than the limit. -/
theorem exists_intText_iff {n : Int} :
    (∃ s, intText n = .ok s) ↔ n.natAbs < 10 ^ Overlong.limit := by
  refine ⟨fun ⟨s, hs⟩ => ?_, intText_of_natAbs_lt⟩
  unfold intText at hs
  split at hs
  · cases hs
  · rename_i hlen
    exact (Nat.length_toDigits_le_iff (by decide) (by decide)).1 (by omega)

/-- A whole number that could be read can be written. -/
theorem intText_of_toInt {m : Numeral} {n : Int} (hd : ∀ d ∈ m.whole, d < 10)
    (h : m.toInt = .ok n) : ∃ s, intText n = .ok s := by
  unfold toInt at h
  split at h
  · simp at h
  · rename_i hlen
    have hlt : ofDigits m.whole < 10 ^ Overlong.limit :=
      (ofDigits_lt hd).trans_le (Nat.pow_le_pow_right (by decide) (by omega))
    refine intText_of_natAbs_lt ?_
    simp only [Except.ok.injEq] at h
    split at h <;> omega

end DocDirective.Numeral
