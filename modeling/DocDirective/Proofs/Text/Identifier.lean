import DocDirective.Text.Blank
import DocDirective.Text.Identifier
import Mathlib.Data.List.TakeWhile

/-!
# Proofs — Text — Identifier

The identifier in front of a text: it is there exactly if the text starts like one, and it goes as
far as the characters allow.  A blank ends it.
-/

namespace DocDirective.Text

theorem toNat_lt_of_isAlpha {c : Char} (h : c.isAlpha = true) : c.toNat < 128 := by
  rcases (Bool.or_eq_true _ _).mp h with hupper | hlower
  · have hle : c.toNat ≤ 'Z'.toNat := (of_decide_eq_true hupper).2
    exact Nat.lt_of_le_of_lt hle (by decide)
  · have hle : c.toNat ≤ 'z'.toNat := of_decide_eq_true ((Bool.and_eq_true _ _).mp hlower).2
    exact Nat.lt_of_le_of_lt hle (by decide)

/-- Identifiers are ASCII. -/
theorem toNat_lt_of_isIdentPart {c : Char} (h : isIdentPart c = true) : c.toNat < 128 := by
  simp only [isIdentPart, isIdentStart, Bool.or_eq_true, decide_eq_true_eq] at h
  rcases h with (halpha | rfl) | hdigit
  · exact toNat_lt_of_isAlpha halpha
  · decide
  · have hle : c.toNat ≤ '9'.toNat := of_decide_eq_true ((Bool.and_eq_true _ _).mp hdigit).2
    exact Nat.lt_of_le_of_lt hle (by decide)

/-- A blank stands in no identifier. -/
theorem isIdentPart_of_isBlank {c : Char} (h : isBlank c = true) : isIdentPart c = false := by
  by_contra hc
  rw [Bool.not_eq_false] at hc
  have hlt := toNat_lt_of_isIdentPart hc
  rw [← Char.ofNat_toNat c] at h hc
  generalize c.toNat = n at h hc hlt
  have hall : ∀ n < 128, isBlank (Char.ofNat n) = true → isIdentPart (Char.ofNat n) = false := by
    decide +kernel
  exact absurd hc (ne_true_of_eq_false (hall n hlt h))

theorem spanIdentifier_append {name rest : List Char} (h : isIdentifier name = true)
    (hr : ∀ c ∈ rest.head?, isIdentPart c = false) :
    spanIdentifier (name ++ rest) = some (name, rest) := by
  cases name with
  | nil => cases h
  | cons c cs =>
    rw [isIdentifier, Bool.and_eq_true, List.all_eq_true] at h
    have htake : rest.takeWhile isIdentPart = [] := by
      cases rest with
      | nil => rfl
      | cons d ds => exact List.takeWhile_cons_of_neg (by simp [hr d rfl])
    have hdrop : rest.dropWhile isIdentPart = rest := by
      cases rest with
      | nil => rfl
      | cons d ds => exact List.dropWhile_cons_of_neg (by simp [hr d rfl])
    rw [List.cons_append, spanIdentifier, if_pos h.1, List.takeWhile_append_of_pos h.2,
      List.dropWhile_append_of_pos h.2, htake, hdrop, List.append_nil]

/-- The identifier in front of a text is one, and the text goes on with a character that does not
belong to it. -/
theorem of_spanIdentifier {cs name rest : List Char} (h : spanIdentifier cs = some (name, rest)) :
    cs = name ++ rest ∧ isIdentifier name = true ∧ ∀ c ∈ rest.head?, isIdentPart c = false := by
  cases cs with
  | nil => cases h
  | cons c cs =>
    rw [spanIdentifier] at h
    split_ifs at h with hc
    cases h
    refine ⟨?_, ?_, ?_⟩
    · rw [List.cons_append, List.takeWhile_append_dropWhile]
    · simp [isIdentifier, hc]
    · intro d hd
      have hnot := List.head?_dropWhile_not isIdentPart cs
      rw [Option.mem_def.1 hd] at hnot
      exact hnot

theorem spanIdentifier_of_head {cs : List Char} (h : ∀ c ∈ cs.head?, isIdentStart c = false) :
    spanIdentifier cs = none := by
  cases cs with
  | nil => rfl
  | cons c cs => rw [spanIdentifier, if_neg (by simp [h c rfl])]

end DocDirective.Text
