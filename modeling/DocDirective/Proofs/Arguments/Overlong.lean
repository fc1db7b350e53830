import DocDirective.Proofs.Arguments.Values
import Mathlib.Data.List.TakeWhile

/-!
# Proofs — Arguments — Overlong

Words that are whole numbers with more digits than a number is read from.  They are the only words
without a value.
-/

namespace DocDirective

/-! ### Rows of digits -/

namespace Numeral

theorem length_digits {cs : List Char} (h : ∀ c ∈ cs, Text.isDigit c = true) :
    (cs.filterMap Text.digitValue?).length = cs.length := by
  induction cs with
  | nil => rfl
  | cons c cs ih =>
    rw [List.forall_mem_cons] at h
    obtain ⟨d, hd⟩ := Option.isSome_iff_exists.1 h.1
    rw [List.filterMap_cons_some hd, List.length_cons, ih h.2, List.length_cons]

/-- The digits in front of a text are read up to the first other character. -/
theorem spanDigits_eq (cs : List Char) :
    spanDigits cs = ((cs.takeWhile Text.isDigit).filterMap Text.digitValue?,
      cs.dropWhile Text.isDigit) := by
  induction cs with
  | nil => rfl
  | cons c cs ih =>
    rw [spanDigits]
    cases hc : Text.digitValue? c with
    | none =>
      have hno : Text.isDigit c = false := by rw [Text.isDigit, hc, Option.isSome_none]
      rw [List.takeWhile_cons_of_neg (ne_true_of_eq_false hno),
        List.dropWhile_cons_of_neg (ne_true_of_eq_false hno)]
      rfl
    | some d =>
      have hyes : Text.isDigit c = true := by rw [Text.isDigit, hc, Option.isSome_some]
      rw [List.takeWhile_cons_of_pos hyes, List.dropWhile_cons_of_pos hyes, ih,
        List.filterMap_cons_some hc]

theorem spanDigits_digits {cs : List Char} (h : ∀ c ∈ cs, Text.isDigit c = true) :
    spanDigits cs = (cs.filterMap Text.digitValue?, []) := by
  rw [spanDigits_eq, List.takeWhile_eq_self_iff.2 h, List.dropWhile_eq_nil_iff.2 h]

/-- A text of digits with a sign in front, or none. -/
structure Signed (cs : List Char) (digits : List Char) : Prop where
  sign   : ∃ sign ∈ [[], ['+'], ['-']], cs = sign ++ digits
  digits : ∀ c ∈ digits, Text.isDigit c = true

theorem spanSign_append (cs : List Char) :
    ∃ sign ∈ [[], ['+'], ['-']], cs = sign ++ (spanSign cs).2 := by
  unfold spanSign
  split
  · exact ⟨['-'], by simp, rfl⟩
  · exact ⟨['+'], by simp, rfl⟩
  · exact ⟨[], by simp, rfl⟩

theorem Signed.spanSign_eq {cs digits : List Char} (h : Signed cs digits) (hne : digits ≠ []) :
    (spanSign cs).2 = digits := by
  obtain ⟨sign, hsign, rfl⟩ := h.sign
  simp only [List.mem_cons, List.not_mem_nil, or_false] at hsign
  rcases hsign with rfl | rfl | rfl
  · -- a digit is no sign
    obtain ⟨c, cs, rfl⟩ := List.exists_cons_of_ne_nil hne
    have hc := h.digits c List.mem_cons_self
    rw [List.nil_append]
    unfold spanSign
    split
    · rename_i heq
      cases heq
      exact absurd hc (by decide)
    · rename_i heq
      cases heq
      exact absurd hc (by decide)
    · rfl
  · rfl
  · rfl

/-- A number without a fraction and an exponent is written with digits only. -/
theorem signed_of_read? {cs : List Char} {m : Numeral} (h : read? cs = some m)
    (hw : m.isWhole = true) :
    ∃ digits, Signed cs digits ∧ m.whole = digits.filterMap Text.digitValue? := by
  have hwhole := whole_of_read? h
  obtain ⟨sign, hsign, hcs⟩ := spanSign_append cs
  have hrest : (spanDigits (spanSign cs).2).2 = [] := by
    simp only [read?] at h
    split at h
    · -- a point would leave a fraction
      split at h
      · cases h
      · exfalso
        unfold finish? at h
        split at h
        · cases h
          cases hw
        · split at h
          · obtain ⟨e, -, rfl⟩ := Option.map_eq_some_iff.1 h
            cases hw
          · cases h
    · split at h
      · cases h
      · generalize (spanDigits (spanSign cs).2).2 = rest at h
        unfold finish? at h
        split at h
        · rfl
        · -- any other character would leave an exponent
          split at h
          · obtain ⟨e, -, rfl⟩ := Option.map_eq_some_iff.1 h
            cases hw
          · cases h
  rw [spanDigits_eq, List.dropWhile_eq_nil_iff] at hrest
  refine ⟨(spanSign cs).2, ⟨⟨sign, hsign, hcs⟩, hrest⟩, ?_⟩
  rw [hwhole, spanDigits_digits hrest]

theorem read?_of_signed {cs digits : List Char} (h : Signed cs digits) (hne : digits ≠ []) :
    ∃ negative,
      read? cs = some ⟨negative, digits.filterMap Text.digitValue?, none, none⟩ := by
  refine ⟨(spanSign cs).1, ?_⟩
  have hsome : (digits.filterMap Text.digitValue?).isEmpty = false := by
    rw [List.isEmpty_eq_false_iff, ← List.length_pos_iff, length_digits h.digits]
    exact List.length_pos_iff.2 hne
  simp only [read?, h.spanSign_eq hne, spanDigits_digits h.digits, hsome]
  rfl

end Numeral

/-! ### Lower case -/

namespace Text

theorem length_lowerChar_pos (c : Char) : 0 < (lowerChar c).length := by
  unfold lowerChar image
  split
  · rename_i ns h
    have hall : ∀ e ∈ lowerMany, 0 < e.2.length := by decide
    have hmem : (c.toNat, ns) ∈ lowerMany := by
      obtain ⟨l₁, l₂, heq, -⟩ := List.lookup_eq_some_iff.1 h
      rw [heq]
      exact List.mem_append_right _ List.mem_cons_self
    rw [List.length_map]
    exact hall _ hmem
  · exact Nat.one_pos

/-- No text becomes shorter in lower case. -/
theorem length_le_lower (cs : List Char) : cs.length ≤ (lower cs).length := by
  have hfrom (afterCased : Bool) : cs.length ≤ (lowerFrom afterCased cs).length := by
    induction cs generalizing afterCased with
    | nil => exact Nat.zero_le _
    | cons c cs ih =>
      have htail := ih (if isIgnorable c then afterCased else isCased c)
      have hhead : 0 < (if c = capitalSigma then
          [Char.ofNat (if afterCased && !startsCased cs then 0x3C2 else 0x3C3)]
        else lowerChar c).length := by
        split
        · exact Nat.one_pos
        · exact length_lowerChar_pos c
      rw [lowerFrom, List.length_append, List.length_cons]
      omega
  exact hfrom false

end Text

/-! ### Words -/

namespace Arguments

/-- A word of `n` digits with a sign in front, or none, that are too many to be read. -/
def TooLong (w : String) (n : Nat) : Prop :=
  Overlong.limit < n ∧ ∃ digits, Numeral.Signed w.toList digits ∧ digits.length = n

theorem TooLong.lowered_ne {w v : String} {n : Nat} (h : TooLong w n) (hv : v.length ≤ 5) :
    Text.lowered w ≠ v := by
  rintro rfl
  obtain ⟨hn, digits, hsigned, rfl⟩ := h
  obtain ⟨sign, -, hw⟩ := hsigned.sign
  have hlen := Text.length_le_lower w.toList
  rw [Text.lowered, String.length_ofList] at hv
  rw [hw, List.length_append] at hlen
  rw [Overlong.limit] at hn
  rw [hw] at hv
  omega

theorem wordValue_of_tooLong {w : String} {n : Nat} (h : TooLong w n) :
    wordValue w = .error (.overlong (.reading n)) := by
  have htrue : Text.lowered w ≠ "true" := h.lowered_ne (by decide)
  have hfalse : Text.lowered w ≠ "false" := h.lowered_ne (by decide)
  obtain ⟨hn, digits, hsigned, rfl⟩ := h
  have hne : digits ≠ [] := List.length_pos_iff.1 (Nat.zero_lt_of_lt hn)
  obtain ⟨negative, hread⟩ := Numeral.read?_of_signed hsigned hne
  have htoInt : Numeral.toInt ⟨negative, digits.filterMap Text.digitValue?, none, none⟩
      = .error (.reading digits.length) := by
    rw [Numeral.toInt, Numeral.length_digits hsigned.digits, if_pos hn]
  unfold wordValue
  dsimp only
  rw [if_neg htrue, if_neg hfalse, hread]
  simp only [htoInt]
  rfl

/-- The only words without a value are whole numbers with too many digits. -/
theorem wordValue_error {w : String} {f : Failure} (h : wordValue w = .error f) :
    ∃ n, TooLong w n ∧ f = .overlong (.reading n) := by
  unfold wordValue at h
  dsimp only at h
  split at h
  · cases h
  · split at h
    · cases h
    · split at h
      · rename_i m hm
        split at h
        · rename_i hw
          split at h
          · cases h
          · rename_i o ho
            cases h
            obtain ⟨digits, hsigned, hwhole⟩ := Numeral.signed_of_read? hm hw
            unfold Numeral.toInt at ho
            rw [hwhole, Numeral.length_digits hsigned.digits] at ho
            split at ho
            · rename_i hn
              cases ho
              exact ⟨_, ⟨hn, digits, hsigned, rfl⟩, rfl⟩
            · cases ho
        · cases h
      · cases h

end Arguments

end DocDirective
