import DocDirective.Kind.Conversion
import DocDirective.Proofs.Number.ReadBack
import DocDirective.Proofs.Steps

/-!
# Proofs — Value — Conversion

Which values can be converted.  Where the whole numbers in a value are not too long, a value has a
text of its own unless it is a list (`asText_iff_of_writable`), and only the empty text is converted
to no characters (`asText_eq_empty_iff`); a truth value is given as one, by a number or by a word
(`Truth`).
-/

namespace DocDirective.Value

/-! ### Texts -/

/-- Every whole number in the value, wherever it stands, has no more digits than the limit. -/
inductive Writable : Value → Prop
  | null : Writable .null
  | bool (b : Bool) : Writable (.bool b)
  | int {n : Int} (h : n.natAbs < 10 ^ Overlong.limit) : Writable (.int n)
  | float (x : Binary64) : Writable (.float x)
  | text (s : String) : Writable (.text s)
  | list {vs : List Value} (h : ∀ v ∈ vs, Writable v) : Writable (.list vs)
  | map {es : List (Value × Value)} (hk : ∀ e ∈ es, Writable e.1) (hv : ∀ e ∈ es, Writable e.2) :
      Writable (.map es)

theorem inspectItems_ok {vs : List Value} (h : ∀ v ∈ vs, ∃ s, v.inspect = .ok s) :
    ∃ ts, inspectItems vs = .ok ts := by
  induction vs with
  | nil => exact ⟨[], rfl⟩
  | cons v vs ih =>
    rw [List.forall_mem_cons] at h
    obtain ⟨s, hs⟩ := h.1
    obtain ⟨ts, hts⟩ := ih h.2
    exact ⟨s :: ts, by simp only [inspectItems, hs, hts, bind, Except.bind, pure, Except.pure]⟩

theorem inspectEntries_ok {es : List (Value × Value)} (hk : ∀ e ∈ es, ∃ s, e.1.inspect = .ok s)
    (hv : ∀ e ∈ es, ∃ s, e.2.inspect = .ok s) : ∃ ts, inspectEntries es = .ok ts := by
  induction es with
  | nil => exact ⟨[], rfl⟩
  | cons e es ih =>
    rw [List.forall_mem_cons] at hk hv
    obtain ⟨key, hkey⟩ := hk.1
    obtain ⟨value, hvalue⟩ := hv.1
    obtain ⟨ts, hts⟩ := ih hk.2 hv.2
    refine ⟨(key ++ ": " ++ value) :: ts, ?_⟩
    simp only [inspectEntries, hkey, hvalue, hts, bind, Except.bind, pure, Except.pure]

theorem Writable.inspect {v : Value} (h : v.Writable) : ∃ s, v.inspect = .ok s := by
  induction h with
  | null => exact ⟨_, rfl⟩
  | bool b => exact ⟨_, rfl⟩
  | int h =>
    obtain ⟨s, hs⟩ := Numeral.exists_intText_iff.2 h
    exact ⟨s, by rw [Value.inspect, hs]⟩
  | float x => exact ⟨_, rfl⟩
  | text s => exact ⟨_, rfl⟩
  | list _ ih =>
    obtain ⟨ts, hts⟩ := inspectItems_ok ih
    refine ⟨"[" ++ ", ".intercalate ts ++ "]", ?_⟩
    simp only [Value.inspect, hts, bind, Except.bind, pure, Except.pure]
  | map _ _ ihk ihv =>
    obtain ⟨ts, hts⟩ := inspectEntries_ok ihk ihv
    refine ⟨"\x7b" ++ ", ".intercalate ts ++ "\x7d", ?_⟩
    simp only [Value.inspect, hts, bind, Except.bind, pure, Except.pure]

/-- A value without overlong numbers has a text of its own exactly if it is no list. -/
theorem asText_iff_of_writable {v : Value} (h : v.Writable) :
    (∃ s, v.asText = .ok s) ↔ v.isList = false := by
  obtain ⟨s, hs⟩ := h.inspect
  cases v with
  | null => exact iff_of_true ⟨_, rfl⟩ rfl
  | bool b => exact iff_of_true ⟨_, rfl⟩ rfl
  | int n => exact iff_of_true ⟨s, by simp only [asText, plain, hs]⟩ rfl
  | float x => exact iff_of_true ⟨_, rfl⟩ rfl
  | text s => exact iff_of_true ⟨_, rfl⟩ rfl
  | list vs => exact iff_of_false (by simp [asText]) (by simp [isList])
  | map es => exact iff_of_true ⟨s, by simp only [asText, plain, hs]⟩ rfl

/-- A text with the structure of a value spelled out has some characters. -/
theorem inspect_ne_empty {v : Value} {s : String} (h : v.inspect = .ok s) : s ≠ "" := by
  cases v with
  | null =>
    cases h
    decide
  | bool b =>
    cases h
    cases b <;> decide
  | int n => exact mt String.toList_eq_nil_iff.2 (Numeral.toList_ne_nil_of_intText h)
  | float x =>
    cases h
    exact mt String.toList_eq_nil_iff.2 x.toList_text_ne_nil
  | text t =>
    cases h
    simp [Text.quoted]
  | list vs =>
    rw [inspect] at h
    obtain ⟨ts, -, hs⟩ := exists_of_bind h
    cases hs
    simp [String.append_eq_empty_iff]
  | map es =>
    rw [inspect] at h
    obtain ⟨ts, -, hs⟩ := exists_of_bind h
    cases hs
    simp [String.append_eq_empty_iff]

/-- Only the empty text is converted to the empty text. -/
theorem asText_eq_empty_iff {v : Value} : v.asText = .ok "" ↔ v = .text "" := by
  constructor
  · intro h
    cases v with
    | text s =>
      cases h
      rfl
    | bool b => cases b <;> simp [asText] at h
    | list vs => cases h
    | _ =>
      -- the text is the one with the structure spelled out
      simp only [asText, plain] at h
      split at h
      · rename_i hs
        cases h
        exact absurd rfl (inspect_ne_empty hs)
      · cases h
  · rintro rfl
    rfl

/-! ### Truth values -/

/-- The truth value that a value gives: its own, that of zero or one, or that of a word in any case
and with blanks around it. -/
inductive Truth : Value → Bool → Prop
  | bool (b : Bool) : Truth (.bool b) b
  | zero : Truth (.int 0) false
  | one : Truth (.int 1) true
  | yes {s : String} (h : Text.lowered (Text.trimmed s) ∈ ["true", "yes", "on"]) :
      Truth (.text s) true
  | no {s : String} (h : Text.lowered (Text.trimmed s) ∈ ["false", "no", "off"]) :
      Truth (.text s) false

theorem asTruth_eq_ok_iff {v : Value} {b : Bool} : v.asTruth = .ok b ↔ Truth v b := by
  constructor
  · intro h
    cases v with
    | bool b => cases h; exact .bool b
    | int n =>
      rw [asTruth] at h
      split_ifs at h with h0 h1
      · cases h
        exact h0 ▸ .zero
      · cases h
        exact h1 ▸ .one
    | text s =>
      simp only [asTruth] at h
      split_ifs at h with hyes hno
      · cases h
        exact .yes hyes
      · cases h
        exact .no hno
    | _ => cases h
  · intro h
    cases h with
    | bool b => rfl
    | zero => rfl
    | one => rfl
    | yes h => simp only [asTruth, if_pos h]
    | no h =>
      -- no word is both
      have hyes : ∀ w ∈ ["false", "no", "off"], w ∉ ["true", "yes", "on"] := by decide
      simp only [asTruth, if_neg (hyes _ h), if_pos h]

end DocDirective.Value
