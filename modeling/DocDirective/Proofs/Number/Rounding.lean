import DocDirective.Number.Binary64
import Mathlib.Algebra.Order.Field.Basic
import Mathlib.Data.Rat.Cast.Order
import Mathlib.Tactic.FieldSimp
import Mathlib.Tactic.NormNum
import Mathlib.Tactic.Ring

/-!
# Proofs — Number — Rounding

The nearest number to a quotient depends on the value of the quotient only, and a number is nearest
to its own value.  So the number that a decimal reads as is decided by the decimal's value: however
its digits and its exponent are written, it reads as the number that any quotient of that value is
rounded to.
-/

namespace DocDirective.Binary64

/-! ### Quotients -/

theorem roundDiv_mul (n d : Nat) {c : Nat} (hc : 0 < c) :
    roundDiv (c * n) (c * d) = roundDiv n d := by
  have h₁ : 2 * (c * (n % d)) < c * d ↔ 2 * (n % d) < d := by
    rw [Nat.mul_left_comm]
    exact Nat.mul_lt_mul_left hc
  have h₂ : c * d < 2 * (c * (n % d)) ↔ d < 2 * (n % d) := by
    rw [Nat.mul_left_comm]
    exact Nat.mul_lt_mul_left hc
  simp only [roundDiv, Nat.mul_mod_mul_left, Nat.mul_div_mul_left _ _ hc, h₁, h₂]

theorem roundDiv_mul_self (m : Nat) {d : Nat} (hd : 0 < d) : roundDiv (m * d) d = m := by
  simp [roundDiv, hd]

theorem nearest_mul (negative : Bool) (num den : Nat) {c : Nat} (hc : 0 < c) :
    nearest negative (c * num) (c * den) = nearest negative num den := by
  simp only [nearest, Nat.mul_assoc c, Nat.mul_div_mul_left _ _ hc, roundDiv_mul _ _ hc]

/-- **Equal quotients have the same nearest number.** -/
theorem nearest_congr (negative : Bool) {a b c d : Nat} (hb : 0 < b) (hd : 0 < d)
    (h : a * d = c * b) : nearest negative a b = nearest negative c d := by
  calc nearest negative a b
      = nearest negative (d * a) (d * b) := (nearest_mul negative a b hd).symm
    _ = nearest negative (b * c) (b * d) := by
        rw [Nat.mul_comm d a, h, Nat.mul_comm c b, Nat.mul_comm d b]
    _ = nearest negative c d := nearest_mul negative c d hb

/-- The sign has no part in the rounding. -/
theorem nearest_eq_pack (num den : Nat) :
    ∃ m k, ∀ negative, nearest negative num den = pack negative m k := by
  by_cases h : roundDiv (num * Nat.pow 2 1074)
      (den * Nat.pow 2 ((num * Nat.pow 2 1074 / den).log2 - 52)) = Nat.pow 2 53
  · exact ⟨_, _, fun negative => if_pos h⟩
  · exact ⟨_, _, fun negative => if_neg h⟩

theorem pack_eq_finite {negative : Bool} {m k a b : Nat} {h : Canonical m k}
    (hp : pack negative a b = .finite negative m k h) : a = m ∧ b = k := by
  unfold pack at hp
  split at hp
  · cases hp
    exact ⟨rfl, rfl⟩
  · cases hp

theorem pack_of_canonical (negative : Bool) {m k : Nat} (h : Canonical m k) :
    pack negative m k = .finite negative m k h :=
  dif_pos h

theorem nearest_sign {num den m k : Nat} {h : Canonical m k}
    (hn : nearest false num den = .finite false m k h) (negative : Bool) :
    nearest negative num den = .finite negative m k h := by
  obtain ⟨a, b, hp⟩ := nearest_eq_pack num den
  obtain ⟨rfl, rfl⟩ := pack_eq_finite ((hp false).symm.trans hn)
  rw [hp, pack_of_canonical negative h]

/-! ### A number is nearest to itself -/

/-- The shift of a canonical pair is what brings its value down to 53 bits. -/
theorem log2_of_canonical {m k : Nat} (h : Canonical m k) : (m * 2 ^ k).log2 - 52 = k := by
  obtain ⟨hm, -, hk⟩ := h
  rcases hk with hm' | rfl
  · have h0 : m * 2 ^ k ≠ 0 := by
      have : 0 < Nat.pow 2 52 := by decide
      have : 0 < 2 ^ k := Nat.two_pow_pos k
      have : 0 < m * 2 ^ k := Nat.mul_pos (by omega) this
      omega
    have hlog : (m * 2 ^ k).log2 = 52 + k := by
      refine (Nat.log2_eq_iff h0).2 ⟨?_, ?_⟩
      · rw [Nat.pow_add]
        exact Nat.mul_le_mul_right _ hm'
      · rw [show 52 + k + 1 = 53 + k by omega, Nat.pow_add]
        exact Nat.mul_lt_mul_of_pos_right hm (Nat.two_pow_pos k)
    omega
  · rw [Nat.pow_zero, Nat.mul_one]
    by_cases h0 : m = 0
    · simp [h0]
    · have : m.log2 < 53 := (Nat.log2_lt h0).2 hm
      omega

theorem nearest_self (negative : Bool) {m k : Nat} (h : Canonical m k) :
    nearest negative (m * 2 ^ k) (2 ^ 1074) = .finite negative m k h := by
  unfold nearest
  simp only [Nat.pow_eq, -Nat.reducePow]
  have hp : 0 < 2 ^ 1074 := Nat.two_pow_pos _
  generalize 2 ^ 1074 = unit at hp ⊢
  have hshift : (m * 2 ^ k * unit / unit).log2 - 52 = k := by
    rw [Nat.mul_div_cancel _ hp, log2_of_canonical h]
  have hround : roundDiv (m * 2 ^ k * unit) (unit * 2 ^ k) = m := by
    rw [Nat.mul_assoc, Nat.mul_comm (2 ^ k)]
    exact roundDiv_mul_self m (Nat.mul_pos hp (Nat.two_pow_pos k))
  rw [hshift, hround, if_neg (Nat.ne_of_lt h.1), pack_of_canonical negative h]

/-! ### Quotients out of range -/

/-- A quotient that rounds to a finite number is below `2 ^ 1024`. -/
theorem lt_of_nearest_finite {num den m k : Nat} {h : Canonical m k} (hd : 0 < den)
    (hn : nearest false num den = .finite false m k h) : num < den * 2 ^ 1024 := by
  have hshift : (num * 2 ^ 1074 / den).log2 - 52 ≤ 2045 := by
    have hk := h.2.1
    unfold nearest at hn
    simp only [Nat.pow_eq, -Nat.reducePow] at hn
    generalize (num * 2 ^ 1074 / den).log2 - 52 = shift at hn ⊢
    split at hn <;> have := (pack_eq_finite hn).2 <;> omega
  have hlt : num * 2 ^ 1074 / den < 2 ^ (1024 + 1074) :=
    Nat.lt_of_lt_of_le Nat.lt_log2_self (Nat.pow_le_pow_right (by decide) (by omega))
  rw [Nat.div_lt_iff_lt_mul hd, Nat.pow_add, Nat.mul_right_comm] at hlt
  rw [Nat.mul_comm]
  exact Nat.lt_of_mul_lt_mul_right hlt

/-- A quotient below half of the smallest number rounds to zero. -/
theorem nearest_of_small (negative : Bool) {num den : Nat} (h : num * 2 ^ 1075 < den) :
    nearest negative num den = nearest negative 0 1 := by
  have hlt : 2 * (num * 2 ^ 1074) < den := by
    rwa [Nat.mul_left_comm, ← Nat.pow_succ']
  have hround : roundDiv (num * 2 ^ 1074) den = 0 := by
    generalize num * 2 ^ 1074 = scaled at hlt ⊢
    rw [roundDiv, Nat.mod_eq_of_lt (by omega), if_pos hlt, Nat.div_eq_of_lt (by omega)]
  have hquot : num * 2 ^ 1074 / den = 0 := by
    generalize num * 2 ^ 1074 = scaled at hlt ⊢
    exact Nat.div_eq_of_lt (by omega)
  have hone (d : Nat) : d * 2 ^ (Nat.log2 0 - 52) = d := by simp
  simp only [nearest, Nat.pow_eq, hquot, hone, hround, Nat.zero_mul, Nat.zero_div,
    -Nat.reducePow]
  rfl

/-! ### Decimals -/

/-- The value of a decimal, as a quotient of whole numbers. -/
theorem decimal_value_iff {digits num den : Nat} {exponent : Int} (hd : 0 < den) :
    (digits : ℚ) * 10 ^ exponent = num / den ↔
      digits * 10 ^ exponent.toNat * den = num * 10 ^ (-exponent).toNat := by
  have hden : (den : ℚ) ≠ 0 := by exact_mod_cast hd.ne'
  have hten : (10 : ℚ) ^ exponent
      = 10 ^ exponent.toNat / 10 ^ (-exponent).toNat := by
    rw [← zpow_natCast, ← zpow_natCast, ← zpow_sub₀ (by norm_num)]
    congr 1
    omega
  rw [hten, ← mul_div_assoc, div_eq_div_iff (by positivity) hden]
  exact_mod_cast Iff.rfl

theorem two_pow_1024_le : 2 ^ 1024 ≤ 10 ^ 400 := by decide +kernel

theorem two_pow_mul_le (n : Nat) : 2 ^ (n + 1) * 2 ^ 1075 ≤ 10 ^ (n + 401) := by
  calc 2 ^ (n + 1) * 2 ^ 1075
      = 2 ^ n * 2 ^ 1076 := by
        rw [← Nat.pow_add, ← Nat.pow_add]
    _ ≤ 10 ^ n * 10 ^ 401 :=
        Nat.mul_le_mul (Nat.pow_le_pow_left (by decide) n) (by decide +kernel)
    _ = 10 ^ (n + 401) := (Nat.pow_add 10 n 401).symm

/-- **A decimal reads as the number nearest to its value**, whatever quotient that value is given
as. -/
theorem ofDecimal_of_value {digits num den m k : Nat} {exponent : Int} {h : Canonical m k}
    (hd : 0 < den) (hv : (digits : ℚ) * 10 ^ exponent = num / den)
    (hn : nearest false num den = .finite false m k h) (negative : Bool) :
    ofDecimal negative digits exponent = .finite negative m k h := by
  rw [decimal_value_iff hd] at hv
  rw [← nearest_sign hn negative]
  have hten (e : Nat) : 0 < 10 ^ e := Nat.pow_pos (by decide)
  unfold ofDecimal
  split
  · rename_i hzero
    rw [hzero, Nat.zero_mul, Nat.zero_mul] at hv
    have hnum : num = 0 := (Nat.mul_eq_zero.1 hv.symm).resolve_right (hten _).ne'
    exact nearest_congr negative (by decide) hd (by rw [hnum, Nat.zero_mul, Nat.zero_mul])
  rename_i hzero
  split
  · -- the value would be above every finite number
    rename_i hbig
    exfalso
    have hlt := lt_of_nearest_finite hd hn
    rw [show (-exponent).toNat = 0 by omega, Nat.pow_zero, Nat.mul_one] at hv
    have hexp : 2 ^ 1024 ≤ 10 ^ exponent.toNat :=
      two_pow_1024_le.trans (Nat.pow_le_pow_right (by decide) (by omega))
    have : den * 2 ^ 1024 ≤ num := by
      rw [← hv, Nat.mul_comm]
      exact Nat.mul_le_mul_right den
        (hexp.trans (Nat.le_mul_of_pos_left _ (Nat.pos_of_ne_zero hzero)))
    omega
  split
  · -- the value is so small that it is nearest to zero
    rename_i hsmall
    refine (nearest_of_small negative ?_).symm
    rw [show exponent.toNat = 0 by omega, Nat.pow_zero, Nat.mul_one] at hv
    have hlog : digits.log2 + 401 ≤ (-exponent).toNat := by omega
    have hten : 2 ^ (digits.log2 + 1) * 2 ^ 1075 ≤ 10 ^ (-exponent).toNat :=
      (two_pow_mul_le digits.log2).trans (Nat.pow_le_pow_right (by decide) hlog)
    refine Nat.lt_of_mul_lt_mul_left (a := 2 ^ (digits.log2 + 1)) ?_
    calc 2 ^ (digits.log2 + 1) * (num * 2 ^ 1075)
        = num * (2 ^ (digits.log2 + 1) * 2 ^ 1075) := Nat.mul_left_comm ..
      _ ≤ num * 10 ^ (-exponent).toNat := Nat.mul_le_mul_left num hten
      _ = digits * den := hv.symm
      _ < 2 ^ (digits.log2 + 1) * den := Nat.mul_lt_mul_of_pos_right Nat.lt_log2_self hd
  split
  · rename_i hnonneg
    refine nearest_congr negative (by decide) hd ?_
    rwa [show (-exponent).toNat = 0 by omega, Nat.pow_zero] at hv
  · rename_i hneg
    refine nearest_congr negative (hten _) hd ?_
    rwa [show exponent.toNat = 0 by omega, Nat.pow_zero, Nat.mul_one] at hv

end DocDirective.Binary64
