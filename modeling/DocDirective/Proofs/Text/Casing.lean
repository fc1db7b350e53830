import DocDirective.Text.Casing
import Mathlib.Data.List.Basic

/-!
# Proofs — Text — Casing

Lower case is reached at once: a text in lower case is its own lower case (`lower_lower`).  A word
whose lower case starts with one of most ASCII letters starts with that letter or its capital, so
that its title case follows from its lower case alone (`capitalize_of_lower`).  No character is
dropped in either case (`image_ne_nil`).
-/

namespace DocDirective.Text

/-! ### Images under runs -/

/-- No image of the first run is covered by the second: all of them lie beside it, or at odd
distances in it where only even ones count. -/
def Run.apart (r q : Run) : Bool :=
  Nat.blt q.last r.image || Nat.blt (r.image + (r.last - r.first)) q.first ||
    (q.step.beq 2 && (r.step.beq 2 || r.first.beq r.last) && ((r.image + q.first) % 2).beq 1)

/-- Every image of the run is a character. -/
def Run.isValid (r : Run) : Bool :=
  Nat.blt (r.image + (r.last - r.first)) 0xD800 ||
    (Nat.blt 0xDFFF r.image && Nat.blt (r.image + (r.last - r.first)) 0x110000)

/-- The code point lies beside the images of the run. -/
def Run.misses (r : Run) (n : Nat) : Bool :=
  Nat.blt n r.image || Nat.blt (r.image + (r.last - r.first)) n

theorem Run.imageOf?_eq_some {r : Run} {n m : Nat} (h : r.imageOf? n = some m) :
    r.first ≤ n ∧ n ≤ r.last ∧ (n - r.first) % r.step = 0 ∧ m = r.image + (n - r.first) := by
  unfold imageOf? at h
  split at h
  · rename_i hcovers
    cases h
    exact ⟨hcovers.1, hcovers.2.1, hcovers.2.2, rfl⟩
  · cases h

theorem Run.imageOf?_of_apart {r q : Run} (h : r.apart q = true) {n m : Nat}
    (hm : r.imageOf? n = some m) : q.imageOf? m = none := by
  obtain ⟨hfirst, hlast, hstep, rfl⟩ := Run.imageOf?_eq_some hm
  refine if_neg ?_
  rintro ⟨hq₁, hq₂, hq₃⟩
  simp only [apart, Bool.or_eq_true, Bool.and_eq_true, Nat.blt_eq, Nat.beq_eq] at h
  obtain (h | h) | ⟨⟨hq, hr⟩, hodd⟩ := h
  · omega
  · omega
  · -- both distances are even, and their sum is odd
    rw [hq] at hq₃
    obtain hr | hr := hr
    · rw [hr] at hstep
      omega
    · omega

theorem Run.toNat_of_isValid {r : Run} (h : r.isValid = true) {n m : Nat}
    (hm : r.imageOf? n = some m) : (Char.ofNat m).toNat = m := by
  obtain ⟨hfirst, hlast, -, rfl⟩ := Run.imageOf?_eq_some hm
  simp only [isValid, Bool.or_eq_true, Bool.and_eq_true, Nat.blt_eq] at h
  have hvalid : (r.image + (n - r.first)).isValidChar := by
    unfold Nat.isValidChar
    omega
  rw [Char.ofNat, dif_pos hvalid]
  rfl

theorem Run.ne_of_misses {r : Run} {n m x : Nat} (h : r.misses x = true)
    (hm : r.imageOf? n = some m) : m ≠ x := by
  obtain ⟨hfirst, hlast, -, rfl⟩ := Run.imageOf?_eq_some hm
  simp only [misses, Bool.or_eq_true, Nat.blt_eq] at h
  omega

/-- Where no exception is empty, no image is. -/
theorem image_ne_nil {many : List (Nat × List Nat)} (hmany : ∀ e ∈ many, e.2 ≠ [])
    (runs : List Run) (c : Char) : image many runs c ≠ [] := by
  unfold image
  split
  · rename_i ns hns
    obtain ⟨before, after, rfl, -⟩ := List.lookup_eq_some_iff.1 hns
    have hexception := hmany _ (List.mem_append_right before List.mem_cons_self)
    exact mt List.map_eq_nil_iff.1 hexception
  · exact List.cons_ne_nil _ _

theorem apart_lowerRuns : (lowerRuns.all fun r => lowerRuns.all r.apart) = true := by
  decide +kernel

theorem isValid_lowerRuns : lowerRuns.all Run.isValid = true := by
  decide +kernel

theorem misses_lowerRuns : (lowerRuns.all fun r => r.misses 0x130) = true := by
  decide +kernel

/-! ### Lower case of one character -/

/-- A character has two characters as its lower case, or one that some run tells, or itself where
no run covers it. -/
theorem lowerChar_cases (c : Char) :
    lowerChar c = ['i', Char.ofNat 0x307]
      ∨ (∃ r ∈ lowerRuns, ∃ m, r.imageOf? c.toNat = some m ∧ lowerChar c = [Char.ofNat m])
      ∨ lowerChar c = [c] := by
  unfold lowerChar image
  split
  · rename_i ns hns
    refine .inl ?_
    rw [lowerMany, List.lookup_cons] at hns
    split at hns
    · cases hns
      rfl
    · cases hns
  · cases hm : lowerRuns.findSome? (·.imageOf? c.toNat) with
    | none => exact .inr (.inr rfl)
    | some m =>
      obtain ⟨r, hr, him⟩ := List.exists_of_findSome?_eq_some hm
      exact .inr (.inl ⟨r, hr, m, him, rfl⟩)

/-- The lower case of a character is its own lower case. -/
theorem lowerChar_of_mem {c d : Char} (h : d ∈ lowerChar c) : lowerChar d = [d] := by
  obtain hc | ⟨r, hr, m, hm, hc⟩ | hc := lowerChar_cases c
  · rw [hc, List.mem_cons, List.mem_singleton] at h
    obtain rfl | rfl := h <;> decide
  · obtain rfl := List.mem_singleton.1 (hc ▸ h)
    have hnat := Run.toNat_of_isValid (List.all_eq_true.1 isValid_lowerRuns r hr) hm
    have hapart (q : Run) (hq : q ∈ lowerRuns) : q.imageOf? m = none :=
      Run.imageOf?_of_apart (List.all_eq_true.1 (List.all_eq_true.1 apart_lowerRuns r hr) q hq) hm
    have hnone : lowerRuns.findSome? (·.imageOf? m) = none := List.findSome?_eq_none_iff.2 hapart
    have hone : lowerMany.lookup m = none := by
      have hne := Run.ne_of_misses (List.all_eq_true.1 misses_lowerRuns r hr) hm
      rw [lowerMany, List.lookup_cons, beq_eq_false_iff_ne.2 hne]
      rfl
    rw [lowerChar, image, hnat, hone, hnone]
    rfl
  · obtain rfl := List.mem_singleton.1 (hc ▸ h)
    exact hc

/-! ### Lower case of texts -/

/-- Where every character is its own lower case, so is the text. -/
theorem lowerFrom_of_settled {cs : List Char} (h : ∀ c ∈ cs, lowerChar c = [c])
    (afterCased : Bool) : lowerFrom afterCased cs = cs := by
  induction cs generalizing afterCased with
  | nil => rfl
  | cons c cs ih =>
    rw [List.forall_mem_cons] at h
    have hc : c ≠ capitalSigma := by
      rintro rfl
      exact absurd h.1 (by decide)
    rw [lowerFrom, if_neg hc, h.1, ih h.2]
    rfl

theorem lowerChar_of_mem_lowerFrom {afterCased : Bool} {cs : List Char} {d : Char}
    (h : d ∈ lowerFrom afterCased cs) : lowerChar d = [d] := by
  induction cs generalizing afterCased with
  | nil => cases h
  | cons c cs ih =>
    rw [lowerFrom] at h
    obtain h | h := List.mem_append.1 h
    · split at h
      · -- either sigma
        split at h <;> obtain rfl := List.mem_singleton.1 h <;> decide
      · exact lowerChar_of_mem h
    · exact ih h

/-- A text in lower case is its own lower case. -/
theorem lower_lower (cs : List Char) : lower (lower cs) = lower cs :=
  lowerFrom_of_settled (fun _ => lowerChar_of_mem_lowerFrom) false

theorem lowered_lowered (s : String) : lowered (lowered s) = lowered s := by
  simp only [lowered, String.toList_ofList, lower_lower]

/-! ### Title case -/

/-- The ASCII letters that are the lower case of nothing but themselves and their capitals. -/
def plainLetters : List Char := "abcdefghjlmnopqrstuvwxyz".toList

/-- Lower case falls into ASCII from its capitals, and from one character beside them. -/
theorem image_lowerRuns : (lowerRuns.all fun r => Nat.blt 0x7F r.image
    || r == ⟨0x41, 0x5A, 1, 0x61⟩ || r == ⟨0x212A, 0x212A, 1, 0x6B⟩) = true := by
  decide +kernel

theorem toNat_plainLetters : (plainLetters.all fun d =>
    Nat.blt d.toNat 0x7F && d.toNat != 0x6B && d.toUpper.toNat + 0x20 == d.toNat) = true := by
  decide +kernel

theorem lowerChar_plainLetters : (plainLetters.all fun d =>
    lowerChar d == [d] && lowerChar d.toUpper == [d]
      && titleChar d == [d.toUpper] && titleChar d.toUpper == [d.toUpper]) = true := by
  decide +kernel

/-- Only the letter itself and its capital have a lower case that starts with the letter. -/
theorem eq_of_lowerChar {c d : Char} (hd : d ∈ plainLetters)
    (h : (lowerChar c).head? = some d) : c = d ∨ c = d.toUpper := by
  obtain hc | ⟨r, hr, m, hm, hc⟩ | hc := lowerChar_cases c
  · rw [hc] at h
    cases h
    exact absurd hd (by decide)
  · rw [hc, List.head?_cons, Option.some.injEq] at h
    have hnat := Run.toNat_of_isValid (List.all_eq_true.1 isValid_lowerRuns r hr) hm
    rw [h] at hnat
    have hletter := List.all_eq_true.1 toNat_plainLetters d hd
    simp only [Bool.and_eq_true, Nat.blt_eq, bne_iff_ne, beq_iff_eq] at hletter
    obtain ⟨⟨hascii, hk⟩, hcapital⟩ := hletter
    have hrun := List.all_eq_true.1 image_lowerRuns r hr
    obtain ⟨hfirst, hlast, -, himage⟩ := Run.imageOf?_eq_some hm
    simp only [Bool.or_eq_true, Nat.blt_eq, beq_iff_eq] at hrun
    obtain (hrun | rfl) | rfl := hrun
    · omega
    · -- the capital of the letter
      dsimp only at hfirst hlast himage
      have hnat' : c.toNat = d.toUpper.toNat := by omega
      exact .inr (Char.ext (UInt32.toNat_inj.1 hnat'))
    · dsimp only at hfirst hlast himage
      omega
  · rw [hc, List.head?_cons, Option.some.injEq] at h
    exact .inl h

theorem lowerChar_ne_nil (c : Char) : lowerChar c ≠ [] :=
  image_ne_nil (by decide) lowerRuns c

theorem lower_cons_of_ne {c : Char} (hc : c ≠ capitalSigma) (rest : List Char) :
    lower (c :: rest) = lowerChar c ++ lowerFrom (!isIgnorable c && isCased c) rest := by
  rw [lower, lowerFrom, if_neg hc]
  cases isIgnorable c <;> rfl

/-- Where the lower case of a text starts with a plain letter, its title case is the capital of
that letter in front of the rest of the lower case. -/
theorem capitalize_of_lower {cs ds : List Char} {d : Char} (hd : d ∈ plainLetters)
    (h : lower cs = d :: ds) : capitalize cs = d.toUpper :: ds := by
  cases cs with
  | nil => cases h
  | cons c rest =>
    have hc : c ≠ capitalSigma := by
      rintro rfl
      rw [lower, lowerFrom, if_pos rfl] at h
      obtain ⟨rfl, -⟩ := List.cons_eq_cons.1 h
      revert hd
      split <;> decide
    rw [lower_cons_of_ne hc] at h
    have hhead : (lowerChar c).head? = some d := by
      rw [← List.head?_append_of_ne_nil _ (lowerChar_ne_nil c), h]
      rfl
    have hletter := List.all_eq_true.1 lowerChar_plainLetters d hd
    simp only [Bool.and_eq_true, beq_iff_eq] at hletter
    obtain ⟨⟨⟨hlower, hcapital⟩, htitle⟩, htitle'⟩ := hletter
    -- the letter or its capital: either way the lower case of the first character is the letter
    obtain rfl | rfl := eq_of_lowerChar hd hhead
    · rw [hlower, List.singleton_append, List.cons.injEq] at h
      rw [capitalize, htitle, h.2]
      rfl
    · rw [hcapital, List.singleton_append, List.cons.injEq] at h
      rw [capitalize, htitle', h.2]
      rfl

/-! ### Upper case -/

theorem upperChar_ne_nil (c : Char) : upperChar c ≠ [] :=
  image_ne_nil (by decide) upperRuns c

/-- A text with its first character in upper case is empty only if there is no first character. -/
theorem upperFirst_eq_empty_iff {s : String} : upperFirst s = "" ↔ s = "" := by
  rw [upperFirst, String.ofList_eq_empty_iff, ← String.toList_eq_nil_iff]
  cases s.toList with
  | nil => exact iff_of_true rfl rfl
  | cons c cs => simp [upper, upperChar_ne_nil]

end DocDirective.Text
