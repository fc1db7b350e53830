import DocDirective.Proofs.Number.Digits
import DocDirective.Proofs.Number.Rounding
import DocDirective.Number.Shortest
import Mathlib.Data.List.DropRight

/-!
# Proofs — Number — Reading back

The text of a floating-point number reads back as that number.  The decimal behind the text has a
value that is rounded to the number; laying the decimal out, with a point or with an exponent, does
not change the value; and the value decides what is read.
-/

namespace DocDirective

namespace Numeral

/-! ### The value of a numeral -/

/-- The value of a numeral without its sign. -/
def magnitude (n : Numeral) : ℚ :=
  (ofDigits (n.whole ++ n.fraction.getD []) : ℚ) *
    10 ^ (n.exponent.getD 0 - ((n.fraction.getD []).length : Int))

theorem toBinary64_of_magnitude {n : Numeral} {num den m k : Nat} {h : Binary64.Canonical m k}
    (hd : 0 < den) (hv : n.magnitude = num / den)
    (hn : Binary64.nearest false num den = .finite false m k h) :
    n.toBinary64 = .finite n.negative m k h :=
  Binary64.ofDecimal_of_value hd hv hn n.negative

/-! ### Reading the parts -/

theorem endsDigits_point (cs : List Char) : EndsDigits ('.' :: cs) :=
  endsDigits_cons (by decide)

theorem spanSign_row (negative : Bool) {ws : List Char} (hw : ws ≠ [])
    (hd : ∀ c ∈ ws, c.isDigit = true) (rest : List Char) :
    spanSign ((if negative then ['-'] else []) ++ (ws ++ rest)) = (negative, ws ++ rest) := by
  obtain ⟨c, cs, rfl⟩ := List.exists_cons_of_ne_nil hw
  exact spanSign_signed negative (hd c (by simp)) (cs ++ rest)

/-- A number with a point is completed from both rows of digits. -/
theorem read?_point (negative : Bool) {w f rest : List Char} (hw : w ≠ [])
    (hwd : ∀ c ∈ w, c.isDigit = true) (hfd : ∀ c ∈ f, c.isDigit = true)
    (hr : EndsDigits rest) :
    read? ((if negative then ['-'] else []) ++ (w ++ '.' :: (f ++ rest)))
      = finish? negative (w.map digitOf) (some (f.map digitOf)) rest := by
  unfold read?
  simp [spanSign_row negative hw hwd, spanDigits_append hwd (endsDigits_point _),
    spanDigits_append hfd hr, hw]

/-- A number without a point is completed from its only row of digits. -/
theorem read?_noPoint (negative : Bool) {w rest : List Char} (hw : w ≠ [])
    (hwd : ∀ c ∈ w, c.isDigit = true) (hr : EndsDigits rest) (hp : ∀ cs, rest ≠ '.' :: cs) :
    read? ((if negative then ['-'] else []) ++ (w ++ rest))
      = finish? negative (w.map digitOf) none rest := by
  have hempty : (w.map digitOf).isEmpty = false := by simpa using hw
  unfold read?
  simp only [spanSign_row negative hw hwd, spanDigits_append hwd hr, hempty, Bool.false_eq_true,
    if_false]

theorem readExponent?_signed {ds : List Char} (hn : ds ≠ []) (hd : ∀ c ∈ ds, c.isDigit = true)
    (negative : Bool) :
    readExponent? ((if negative then '-' else '+') :: ds)
      = some (if negative then -(ofDigits (ds.map digitOf) : Int)
          else ofDigits (ds.map digitOf)) := by
  obtain ⟨c, cs, rfl⟩ := List.exists_cons_of_ne_nil hn
  have hspan := spanDigits_all hd
  rw [List.map_cons] at hspan ⊢
  cases negative <;> simp [readExponent?, spanSign, hspan]

end Numeral

namespace Binary64

open Numeral (digitOf ofDigits read? finish? EndsDigits)

/-- An exponent reads back from its mark. -/
theorem finish?_exponentText (negative : Bool) (whole : List Nat) (fraction : Option (List Nat))
    (e : Int) :
    finish? negative whole fraction (exponentText e)
      = some ⟨negative, whole, fraction, some e⟩ := by
  have hd : ∀ c ∈ Nat.toDigits 10 e.natAbs, c.isDigit = true :=
    fun c hc => Numeral.isDigit_of_mem_toDigits hc
  have hread (ds : List Char) (hn : ds ≠ []) (hds : ∀ c ∈ ds, c.isDigit = true)
      (hv : ofDigits (ds.map digitOf) = e.natAbs) :
      finish? negative whole fraction ('e' :: (if e < 0 then '-' else '+') :: ds)
        = some ⟨negative, whole, fraction, some e⟩ := by
    have hs := Numeral.readExponent?_signed hn hds (decide (e < 0))
    simp only [decide_eq_true_eq] at hs
    rw [finish?, if_pos (by decide), hs, hv]
    simp only [Option.map_some, Option.some.injEq, Numeral.mk.injEq, true_and]
    split <;> omega
  by_cases hlen : (Nat.toDigits 10 e.natAbs).length < 2
  · -- a single digit has a zero in front
    simp only [exponentText, hlen, if_true]
    refine hread ('0' :: Nat.toDigits 10 e.natAbs) (by simp) ?_ ?_
    · intro c hc
      rcases List.mem_cons.1 hc with rfl | hc
      · decide
      · exact hd c hc
    · rw [List.map_cons, ← List.singleton_append, Numeral.ofDigits_append,
        Numeral.ofDigits_toDigits, show ofDigits [digitOf '0'] = 0 by decide, Nat.zero_mul,
        Nat.zero_add]
  · simp only [exponentText, hlen, if_false]
    exact hread _ Nat.toDigits_ne_nil hd (Numeral.ofDigits_toDigits _)

theorem endsDigits_exponentText (e : Int) : EndsDigits (exponentText e) :=
  Numeral.endsDigits_cons (by decide)

/-! ### Laying digits out -/

theorem ofDigits_zeros_append (n : Nat) (ds : List Nat) :
    ofDigits (List.replicate n 0 ++ ds) = ofDigits ds := by
  rw [Numeral.ofDigits_append, Numeral.ofDigits_replicate_zero, Nat.zero_mul, Nat.zero_add]

theorem ofDigits_append_zeros (ds : List Nat) (n : Nat) :
    ofDigits (ds ++ List.replicate n 0) = ofDigits ds * 10 ^ n := by
  rw [Numeral.ofDigits_append, Numeral.ofDigits_replicate_zero, Nat.add_zero,
    List.length_replicate]

theorem isDigit_of_mem_replicate {n : Nat} {c : Char} (h : c ∈ List.replicate n '0') :
    c.isDigit = true := by
  rw [(List.mem_replicate.1 h).2]
  decide

theorem map_digitOf_replicate (n : Nat) :
    (List.replicate n '0').map digitOf = List.replicate n 0 := by
  simp [digitOf]

/-- The text, with a sign in front, reads as a number of that sign and of a magnitude that is not
written as a whole number. -/
def Spells (negative : Bool) (cs : List Char) (q : ℚ) : Prop :=
  ∃ n, read? ((if negative then ['-'] else []) ++ cs) = some n ∧
    n.negative = negative ∧ n.isWhole = false ∧ n.magnitude = q

theorem spells_point (negative : Bool) {w f : List Char} (hw : w ≠ [])
    (hwd : ∀ c ∈ w, c.isDigit = true) (hfd : ∀ c ∈ f, c.isDigit = true) :
    Spells negative (w ++ '.' :: f)
      ((ofDigits ((w ++ f).map digitOf) : ℚ) * 10 ^ (0 - (f.length : Int))) := by
  have hread := Numeral.read?_point negative hw hwd hfd Numeral.endsDigits_nil
  rw [List.append_nil] at hread
  refine ⟨_, hread.trans rfl, rfl, rfl, ?_⟩
  simp only [Numeral.magnitude, Option.getD_some, Option.getD_none, List.length_map,
    List.map_append]

/-- A digit, the other digits behind a point if there are any, and an exponent. -/
theorem spells_exponent (negative : Bool) {c : Char} {f : List Char} (hc : c.isDigit = true)
    (hfd : ∀ d ∈ f, d.isDigit = true) (e : Int) :
    Spells negative ([c] ++ (if f.length = 0 then [] else '.' :: f) ++ exponentText e)
      ((ofDigits ((c :: f).map digitOf) : ℚ) * 10 ^ (e - (f.length : Int))) := by
  have hcd : ∀ d ∈ [c], d.isDigit = true := List.forall_mem_singleton.2 hc
  rw [List.append_assoc]
  by_cases hf : f.length = 0
  · obtain rfl := List.length_eq_zero_iff.1 hf
    have hread := Numeral.read?_noPoint negative (List.cons_ne_nil c []) hcd
      (endsDigits_exponentText e) (by simp [exponentText])
    rw [finish?_exponentText] at hread
    refine ⟨_, hread, rfl, rfl, ?_⟩
    simp [Numeral.magnitude]
  · have hread := Numeral.read?_point negative (List.cons_ne_nil c []) hcd hfd
      (endsDigits_exponentText e)
    rw [finish?_exponentText] at hread
    rw [if_neg hf]
    refine ⟨_, hread, rfl, rfl, ?_⟩
    simp [Numeral.magnitude]

/-- **A layout reads as its digits with the point where it was asked for**, whichever of the forms
the layout takes. -/
theorem spells_layout (negative : Bool) {ds : List Char} (hn : ds ≠ [])
    (hd : ∀ c ∈ ds, c.isDigit = true) (point : Int) :
    Spells negative (layout ds point)
      ((ofDigits (ds.map digitOf) : ℚ) * 10 ^ (point - (ds.length : Int))) := by
  fun_cases layout ds point with
  | case1 hpoint hle =>
    -- a zero, the point, zeros and the digits
    have h := spells_point negative (w := ['0']) (f := List.replicate (-point).toNat '0' ++ ds)
      (by simp) (by simp) fun c hc => (List.mem_append.1 hc).elim isDigit_of_mem_replicate (hd c)
    have hzeros : (['0'] ++ (List.replicate (-point).toNat '0' ++ ds)).map digitOf
        = List.replicate ((-point).toNat + 1) 0 ++ ds.map digitOf := by
      simp [digitOf, List.replicate_succ]
    have hexp : (0 : Int) - ((-point).toNat + ds.length : Nat) = point - ds.length := by omega
    rw [hzeros, ofDigits_zeros_append, List.length_append, List.length_replicate, hexp] at h
    simpa using h
  | case2 hpoint hgt hlen =>
    -- the digits, zeros, the point and a zero
    have h := spells_point negative (w := ds ++ List.replicate (point.toNat - ds.length) '0')
      (f := ['0']) (by simp [hn])
      (fun c hc => (List.mem_append.1 hc).elim (hd c) isDigit_of_mem_replicate) (by simp)
    have hzeros : (ds ++ List.replicate (point.toNat - ds.length) '0' ++ ['0']).map digitOf
        = ds.map digitOf ++ List.replicate (point.toNat - ds.length + 1) 0 := by
      simp [digitOf, List.replicate_succ']
    have hvalue : ((ofDigits (ds.map digitOf) * 10 ^ (point.toNat - ds.length + 1) : Nat) : ℚ)
        * 10 ^ (0 - (1 : Int)) = ofDigits (ds.map digitOf) * 10 ^ (point - (ds.length : Int)) := by
      push_cast
      rw [mul_assoc, ← zpow_natCast, ← zpow_add₀ (by norm_num)]
      congr 2
      omega
    rw [hzeros, ofDigits_append_zeros, List.length_singleton, Nat.cast_one, hvalue] at h
    exact h
  | case3 hpoint hgt hlen =>
    -- the point between two of the digits
    have hne : ds.take point.toNat ≠ [] := by
      simp only [Ne, List.take_eq_nil_iff, hn, or_false]
      omega
    have h := spells_point negative hne (fun c hc => hd c (List.mem_of_mem_take hc))
      (fun c hc => hd c (List.mem_of_mem_drop (i := point.toNat) hc))
    have hexp : (0 : Int) - (ds.length - point.toNat : Nat) = point - ds.length := by omega
    rw [List.take_append_drop, List.length_drop, hexp] at h
    simpa using h
  | case4 hpoint =>
    -- one digit in front of the point, and an exponent
    obtain ⟨c, f, rfl⟩ := List.exists_cons_of_ne_nil hn
    rw [List.forall_mem_cons] at hd
    have h := spells_exponent negative hd.1 hd.2 (point - 1)
    have hexp : point - 1 - (f.length : Int) = point - ((c :: f).length : Int) := by
      rw [List.length_cons]
      omega
    rw [hexp] at h
    simpa using h

/-! ### The shortest decimal -/

/-- The value of a decimal is rounded to `mantissa * 2 ^ shift`. -/
def ReadsAs (d : Decimal) {m k : Nat} (h : Canonical m k) : Prop :=
  ∃ num den : Nat, 0 < den ∧ (d.digits : ℚ) * 10 ^ d.exponent = num / den ∧
    nearest false num den = .finite false m k h

theorem exact_value (m n : Nat) : (m * 5 ^ n : ℚ) * 10 ^ (-(n : Int)) = m / 2 ^ n := by
  rw [zpow_neg, zpow_natCast, show (10 : ℚ) = 5 * 2 by norm_num, mul_pow]
  field_simp

theorem exact_readsAs {m k : Nat} (h : Canonical m k) : ReadsAs (exact m k) h := by
  refine ⟨m * 2 ^ k, 2 ^ 1074, Nat.two_pow_pos _, ?_, nearest_self false h⟩
  have := exact_value (m * 2 ^ k) 1074
  simp only [exact, Nat.pow_eq]
  push_cast at this ⊢
  exact this

theorem test_of_neighbour {test : Nat → Bool} {num den d : Nat}
    (h : neighbour test num den = some d) : test d = true := by
  unfold neighbour at h
  dsimp only at h
  generalize num / den = low at h
  split at h
  · cases h
  · cases h
    assumption
  · cases h
    assumption
  · rename_i hlow hnext
    split at h
    · cases h
      exact hlow
    split at h
    · cases h
      exact hnext
    · cases h
      rcases Nat.mod_two_eq_zero_or_one low with hr | hr <;> rw [hr]
      · exact hlow
      · exact hnext

/-- Whatever the search finds reads back: it looks for nothing else. -/
theorem onGrid_readsAs {m k length count : Nat} {d : Decimal} (h : Canonical m k)
    (hc : count ≤ length) (hd : onGrid m k length count = some d) : ReadsAs d h := by
  obtain ⟨n, hn, rfl⟩ := Option.map_eq_some_iff.1 hd
  have hback := of_decide_eq_true (test_of_neighbour hn)
  refine ⟨_, _, Nat.pow_pos (show 0 < 10 by decide), ?_,
    hback.trans (pack_of_canonical false h)⟩
  simp only [Nat.pow_eq]
  rw [zpow_sub₀ (by norm_num), show (length : Int) - count = (length - count : Nat) by omega,
    zpow_natCast, zpow_natCast]
  push_cast
  rw [mul_div_assoc]

theorem nearest_zero_eq (den : Nat) (hd : 0 < den) :
    nearest false 0 den = .finite false 0 0 (by decide) :=
  (nearest_congr false hd Nat.one_pos (by simp) : _ = nearest false 0 1).trans
    (by decide +kernel)

theorem ofDecimal_zero (negative : Bool) (e : Int) :
    ofDecimal negative 0 e = .finite negative 0 0 (by decide) := by
  rw [ofDecimal, if_pos rfl]
  exact nearest_sign (nearest_zero_eq 1 Nat.one_pos) negative

theorem digits_ne_zero_of_readsAs {d : Decimal} {m k : Nat} {h : Canonical m k} (hm : m ≠ 0)
    (hd : ReadsAs d h) : d.digits ≠ 0 := by
  obtain ⟨num, den, hden, hv, hn⟩ := hd
  intro h0
  have hnum : num = 0 := by
    rw [decimal_value_iff hden, h0, Nat.zero_mul, Nat.zero_mul] at hv
    exact (Nat.mul_eq_zero.1 hv.symm).resolve_right (Nat.pow_pos (by decide)).ne'
  rw [hnum, nearest_zero_eq den hden] at hn
  cases hn
  exact hm rfl

theorem pow_sixteen_le_places : Nat.pow 10 16 * Nat.pow 2 1074 ≤ Nat.pow 10 places := by
  decide +kernel

/-- The search has seventeen digits to choose from. -/
theorem seventeen_le_length {m k : Nat} (hm : m ≠ 0) :
    17 ≤ (Nat.toDigits 10 (m * Nat.pow 2 k * Nat.pow 10 places / Nat.pow 2 1074)).length := by
  have hone : 1 ≤ m * Nat.pow 2 k := Nat.mul_pos (Nat.pos_of_ne_zero hm) (Nat.two_pow_pos k)
  have hunits : 0 < Nat.pow 2 1074 := Nat.two_pow_pos _
  have hscale := pow_sixteen_le_places
  generalize Nat.pow 10 places = scale at hscale ⊢
  generalize Nat.pow 2 1074 = units at hunits hscale ⊢
  have hge : 10 ^ 16 ≤ m * Nat.pow 2 k * scale / units :=
    (Nat.le_div_iff_mul_le hunits).2 (hscale.trans (Nat.le_mul_of_pos_left _ hone))
  by_contra hlen
  have hlt := (Nat.length_toDigits_le_iff (k := 16) (b := 10) (by decide) (by decide)).1
    (Nat.lt_succ_iff.1 (Nat.lt_of_not_le hlen))
  omega

theorem shortest_readsAs {m k : Nat} (h : Canonical m k) (hm : m ≠ 0) :
    ReadsAs (shortest m k) h := by
  unfold shortest
  extract_lets scaled length
  have hlen : 17 ≤ length := seventeen_le_length hm
  cases hf : (List.range 17).findSome? fun i => onGrid m k length (i + 1) with
  | none => exact exact_readsAs h
  | some d =>
    obtain ⟨i, hi, hd⟩ := List.exists_of_findSome?_eq_some hf
    have := List.mem_range.1 hi
    exact onGrid_readsAs h (by omega) hd

/-! ### The text of a number -/

theorem significant_append (ds : List Char) :
    ∃ n, ds = significant ds ++ List.replicate n '0' := by
  have hzeros : ds.rtakeWhile (· = '0')
      = List.replicate (ds.rtakeWhile (· = '0')).length '0' :=
    List.eq_replicate_iff.2 ⟨rfl, fun c hc => by simpa using List.mem_rtakeWhile_imp hc⟩
  refine ⟨(ds.rtakeWhile (· = '0')).length, ?_⟩
  rw [← hzeros]
  exact (List.rdropWhile_append_rtakeWhile ..).symm

/-- The text of a decimal reads as a numeral of the same value, so it is rounded to the same
number. -/
theorem read?_decimal (negative : Bool) {d : Decimal} {m k : Nat} {h : Canonical m k}
    (h0 : d.digits ≠ 0) (hd : ReadsAs d h) :
    ∃ n, read? ((if negative then ['-'] else []) ++
        layout (significant (Nat.toDigits 10 d.digits))
          ((Nat.toDigits 10 d.digits).length + d.exponent)) = some n ∧
      n.isWhole = false ∧ n.toBinary64 = .finite negative m k h := by
  obtain ⟨num, den, hden, hv, hn⟩ := hd
  obtain ⟨j, hj⟩ := significant_append (Nat.toDigits 10 d.digits)
  generalize significant (Nat.toDigits 10 d.digits) = row at hj ⊢
  -- the zeros that are left out go into the exponent
  have hval : d.digits = ofDigits (row.map digitOf) * 10 ^ j := by
    rw [← ofDigits_append_zeros, ← map_digitOf_replicate, ← List.map_append, ← hj,
      Numeral.ofDigits_toDigits]
  have hlen : (Nat.toDigits 10 d.digits).length = row.length + j := by
    rw [hj, List.length_append, List.length_replicate]
  have hrow : row ≠ [] := by
    rintro rfl
    exact h0 (hval.trans (by simp [ofDigits]))
  have hrowd : ∀ c ∈ row, c.isDigit = true := fun c hc =>
    Numeral.isDigit_of_mem_toDigits (n := d.digits) (by rw [hj]; exact List.mem_append_left _ hc)
  obtain ⟨n, hread, hneg, hwhole, hmag⟩ := spells_layout negative hrow hrowd
    ((Nat.toDigits 10 d.digits).length + d.exponent)
  refine ⟨n, hread, hwhole, ?_⟩
  rw [← hneg]
  refine Numeral.toBinary64_of_magnitude hden ?_ hn
  have hexp : ((row.length + j : Nat) : Int) + d.exponent - row.length = j + d.exponent := by
    omega
  rw [hmag, ← hv, hlen, hexp, hval, zpow_add₀ (by norm_num), zpow_natCast]
  push_cast
  ring

/-- The text of a number reads as a numeral of its sign that is rounded to it. -/
theorem read?_magnitudeText (negative : Bool) {m k : Nat} (h : Canonical m k) :
    ∃ n, read? ((if negative then ['-'] else []) ++ magnitudeText m k) = some n ∧
      n.isWhole = false ∧ n.toBinary64 = .finite negative m k h := by
  by_cases hm : m = 0
  · obtain rfl := hm
    obtain rfl : k = 0 := h.2.2.resolve_left (by decide)
    refine ⟨⟨negative, [0], some [0], none⟩, ?_, rfl, ?_⟩
    · exact Numeral.read?_point negative (w := ['0']) (f := ['0']) (by simp) (by simp) (by simp)
        Numeral.endsDigits_nil
    · exact ofDecimal_zero negative _
  · have hback := shortest_readsAs h hm
    rw [magnitudeText, if_neg hm]
    exact read?_decimal negative (digits_ne_zero_of_readsAs hm hback) hback

theorem layout_ne_nil (digits : List Char) (point : Int) : layout digits point ≠ [] := by
  unfold layout
  split_ifs <;> simp [exponentText]

theorem toList_text_ne_nil (x : Binary64) : x.text.toList ≠ [] := by
  rw [text, String.toList_ofList]
  cases x with
  | finite negative m k h =>
    have hmagnitude : magnitudeText m k ≠ [] := by
      unfold magnitudeText
      split_ifs
      · exact List.cons_ne_nil _ _
      · exact layout_ne_nil _ _
    exact List.append_ne_nil_of_right_ne_nil _ hmagnitude
  | infinite negative => exact List.append_ne_nil_of_right_ne_nil _ (List.cons_ne_nil _ _)
  | nan => exact List.cons_ne_nil _ _

/-- **The text of a finite number reads back as the number.** -/
theorem read?_chars {x : Binary64} (hx : x.isFinite = true) :
    ∃ n, read? x.chars = some n ∧ n.isWhole = false ∧ n.toBinary64 = x := by
  cases x with
  | finite negative m k h => exact read?_magnitudeText negative h
  | infinite negative => cases hx
  | nan => cases hx

end Binary64

end DocDirective
