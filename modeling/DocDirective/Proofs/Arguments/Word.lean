import DocDirective.Arguments.Entry
import DocDirective.Proofs.Arguments.Lexing
import DocDirective.Proofs.Number.ReadBack
import DocDirective.Proofs.Text.Identifier

/-!
# Proofs — Arguments — Word

Truth values and numbers are written as words that have them as their values.  Nothing in such a
word, nor in a key that is written as it is, would cut the word short.
-/

namespace DocDirective

/-! ### The characters of numbers -/

/-- The characters that numbers are written with. -/
def numberParts : List Char :=
  ['0', '1', '2', '3', '4', '5', '6', '7', '8', '9', '-', '+', '.', 'e']

theorem mem_numberParts_of_isDigit {c : Char} (h : c.isDigit = true) : c ∈ numberParts := by
  obtain ⟨h₁, h₂⟩ := Numeral.toNat_of_isDigit h
  rw [← Char.ofNat_toNat c]
  generalize c.toNat = n at h₁ h₂
  have hall : ∀ n < 58, 48 ≤ n → Char.ofNat n ∈ numberParts := by decide
  exact hall n (by omega) h₁

theorem mem_numberParts_of_mem_toDigits {n : Nat} {c : Char} (h : c ∈ Nat.toDigits 10 n) :
    c ∈ numberParts :=
  mem_numberParts_of_isDigit (Numeral.isDigit_of_mem_toDigits h)

theorem mem_numberParts_of_mem_sign {negative : Bool} {c : Char}
    (h : c ∈ if negative then ['-'] else []) : c ∈ numberParts := by
  cases negative with
  | false => cases h
  | true =>
    rw [List.mem_singleton.1 h]
    decide

theorem mem_numberParts_of_mem_intChars {n : Int} {c : Char} (h : c ∈ Numeral.intChars n) :
    c ∈ numberParts := by
  unfold Numeral.intChars at h
  rcases List.mem_append.1 h with h | h
  · have hsign : c ∈ if decide (n < 0) then ['-'] else [] := by simpa using h
    exact mem_numberParts_of_mem_sign hsign
  · exact mem_numberParts_of_mem_toDigits h

namespace Binary64

theorem mem_numberParts_of_mem_exponentText {e : Int} {c : Char} (h : c ∈ exponentText e) :
    c ∈ numberParts := by
  unfold exponentText at h
  rcases List.mem_append.1 h with h | h
  · rcases List.mem_cons.1 h with rfl | h
    · decide
    · rw [List.mem_singleton.1 h]
      split <;> decide
  · split at h
    · rcases List.mem_cons.1 h with rfl | h
      · decide
      · exact mem_numberParts_of_mem_toDigits h
    · exact mem_numberParts_of_mem_toDigits h

theorem mem_numberParts_of_mem_layout {ds : List Char} (hd : ∀ c ∈ ds, c ∈ numberParts)
    {point : Int} {c : Char} (h : c ∈ layout ds point) : c ∈ numberParts := by
  have hzero (n : Nat) (hc : c ∈ List.replicate n '0') : c ∈ numberParts := by
    rw [(List.mem_replicate.1 hc).2]
    decide
  have hpoint : c = '.' → c ∈ numberParts := by
    rintro rfl
    decide
  revert h
  fun_cases layout ds point with
  | case1 =>
    intro h
    simp only [List.cons_append, List.nil_append, List.mem_cons, List.mem_append] at h
    rcases h with h | h | h | h
    · rw [h]; decide
    · exact hpoint h
    · exact hzero _ h
    · exact hd c h
  | case2 =>
    intro h
    simp only [List.mem_append, List.mem_cons, List.not_mem_nil, or_false] at h
    rcases h with (h | h) | h | h
    · exact hd c h
    · exact hzero _ h
    · exact hpoint h
    · rw [h]; decide
  | case3 =>
    intro h
    simp only [List.mem_append, List.mem_cons, List.not_mem_nil, or_false] at h
    rcases h with (h | h) | h
    · exact hd c (List.mem_of_mem_take h)
    · exact hpoint h
    · exact hd c (List.mem_of_mem_drop h)
  | case4 =>
    intro h
    rcases List.mem_append.1 h with h | h
    · rcases List.mem_append.1 h with h | h
      · exact hd c (List.mem_of_mem_take h)
      · split at h
        · cases h
        · rcases List.mem_cons.1 h with h | h
          · exact hpoint h
          · exact hd c (List.mem_of_mem_drop h)
    · exact mem_numberParts_of_mem_exponentText h

theorem mem_numberParts_of_mem_chars {x : Binary64} (hx : x.isFinite = true) {c : Char}
    (h : c ∈ x.chars) : c ∈ numberParts := by
  cases x with
  | infinite negative => cases hx
  | nan => cases hx
  | finite negative m k hmk =>
    rcases List.mem_append.1 h with h | h
    · exact mem_numberParts_of_mem_sign h
    · unfold magnitudeText at h
      split at h
      · simp only [List.mem_cons, List.not_mem_nil, or_false] at h
        rcases h with rfl | rfl | rfl <;> decide
      · refine mem_numberParts_of_mem_layout (fun d hd => ?_) h
        have hd := (List.dropWhile_sublist _).subset (List.mem_reverse.1 hd)
        exact mem_numberParts_of_mem_toDigits (List.mem_reverse.1 hd)

end Binary64

/-! ### Words with a value -/

namespace Arguments

theorem isPlain_of_mem_numberParts {c : Char} (h : c ∈ numberParts) : isPlain c = true := by
  have hall : numberParts.all isPlain = true := by decide
  exact List.all_eq_true.1 hall c h

theorem lowerChar_of_mem_numberParts {c : Char} (h : c ∈ numberParts) :
    Text.lowerChar c = [c] ∧ c ≠ Text.capitalSigma := by
  have hall : numberParts.all
      (fun c => Text.lowerChar c = [c] ∧ c ≠ Text.capitalSigma) = true := by
    decide +kernel
  exact of_decide_eq_true (List.all_eq_true.1 hall c h)

theorem lower_of_numberParts {cs : List Char} (h : ∀ c ∈ cs, c ∈ numberParts) :
    Text.lower cs = cs := by
  have hfrom (afterCased : Bool) : Text.lowerFrom afterCased cs = cs := by
    induction cs generalizing afterCased with
    | nil => rfl
    | cons c cs ih =>
      rw [List.forall_mem_cons] at h
      obtain ⟨hc, hs⟩ := lowerChar_of_mem_numberParts h.1
      rw [Text.lowerFrom, if_neg hs, hc, ih h.2]
      rfl
  exact hfrom false

/-- A number is no truth value in any case. -/
theorem lowered_ne_of_numberParts {s w : String} (h : ∀ c ∈ s.toList, c ∈ numberParts)
    (hw : ∃ c ∈ w.toList, c ∉ numberParts) : Text.lowered s ≠ w := by
  obtain ⟨c, hc, hn⟩ := hw
  rintro rfl
  rw [Text.lowered, String.toList_ofList, lower_of_numberParts h] at hc
  exact hn (h c hc)

theorem wordValue_number {s : String} {n : Numeral} (h : ∀ c ∈ s.toList, c ∈ numberParts)
    (hr : Numeral.read? s.toList = some n) :
    wordValue s = if n.isWhole then
      match n.toInt with
      | .ok i    => .ok (.int i)
      | .error o => .error (.overlong o)
    else .ok (.float n.toBinary64) := by
  -- one letter outside the parts of numbers keeps each truth value away
  have htrue : Text.lowered s ≠ "true" :=
    lowered_ne_of_numberParts h ⟨'t', by decide, by decide⟩
  have hfalse : Text.lowered s ≠ "false" :=
    lowered_ne_of_numberParts h ⟨'f', by decide, by decide⟩
  unfold wordValue
  dsimp only
  rw [if_neg htrue, if_neg hfalse]
  split
  · rename_i m hm
    cases hr.symm.trans hm
    rfl
  · rename_i hm
    cases hr.symm.trans hm

theorem wordValue_bool (b : Bool) :
    wordValue (if b then "true" else "false") = .ok (.bool b) := by
  have htrue : Text.lowered "true" = "true" := by decide +kernel
  have hfalse : Text.lowered "false" = "false" := by decide +kernel
  cases b with
  | true => rw [if_pos rfl, wordValue, htrue]; rfl
  | false => rw [if_neg Bool.false_ne_true, wordValue, hfalse]; rfl

theorem mem_numberParts_of_intText {n : Int} {s : String} (h : Numeral.intText n = .ok s) :
    ∀ c ∈ s.toList, c ∈ numberParts := by
  intro c hc
  rw [Numeral.toList_of_intText h] at hc
  exact mem_numberParts_of_mem_intChars hc

/-- A whole number is the value of its text. -/
theorem wordValue_int {n : Int} {s : String} (h : Numeral.intText n = .ok s) :
    wordValue s = .ok (.int n) := by
  obtain ⟨m, hr, hw, hi⟩ := Numeral.toInt_of_intText h
  rw [wordValue_number (mem_numberParts_of_intText h) hr, if_pos hw, hi]

theorem mem_numberParts_of_text {x : Binary64} (hx : x.isFinite = true) :
    ∀ c ∈ x.text.toList, c ∈ numberParts := by
  intro c hc
  exact Binary64.mem_numberParts_of_mem_chars hx (by simpa [Binary64.text] using hc)

/-- A finite number is the value of its text. -/
theorem wordValue_float {x : Binary64} (hx : x.isFinite = true) :
    wordValue x.text = .ok (.float x) := by
  obtain ⟨n, hr, hw, hv⟩ := Binary64.read?_chars hx
  rw [wordValue_number (mem_numberParts_of_text hx) (by simpa [Binary64.text] using hr), hw, hv]
  rfl

/-! ### Keys -/

theorem toNat_lt_of_isKeyPart {c : Char} (h : isKeyPart c = true) : c.toNat < 128 := by
  simp only [isKeyPart, Bool.or_eq_true, decide_eq_true_eq] at h
  rcases h with (h | rfl) | rfl
  · exact Text.toNat_lt_of_isIdentPart h
  · decide
  · decide

theorem isPlain_of_isKeyPart {c : Char} (h : isKeyPart c = true) : isPlain c = true := by
  have hlt := toNat_lt_of_isKeyPart h
  rw [← Char.ofNat_toNat c] at h ⊢
  generalize c.toNat = n at h hlt
  have hall : ∀ n < 128, isKeyPart (Char.ofNat n) = true → isPlain (Char.ofNat n) = true := by
    decide +kernel
  exact hall n hlt h

theorem isKeyPart_of_mem {cs : List Char} (h : isKey cs = true) {c : Char} (hc : c ∈ cs) :
    isKeyPart c = true := by
  cases cs with
  | nil => cases hc
  | cons d ds =>
    simp only [isKey, Bool.and_eq_true, List.all_eq_true] at h
    rcases List.mem_cons.1 hc with rfl | hc
    · simp [isKeyPart, Text.isIdentPart, h.1]
    · exact h.2 c hc

/-- A key that is written as it is holds nothing that would cut a word short. -/
theorem isPlain_of_isKey {cs : List Char} (h : isKey cs = true) :
    cs ≠ [] ∧ ∀ c ∈ cs, isPlain c = true := by
  refine ⟨?_, fun c hc => isPlain_of_isKeyPart (isKeyPart_of_mem h hc)⟩
  rintro rfl
  cases h

end Arguments

end DocDirective
