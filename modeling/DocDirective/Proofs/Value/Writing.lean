import DocDirective.Value.Display
import Mathlib.Algebra.Group.Nat.Defs

/-!
# Proofs — Value — Writing

Which values have a text.  Writing a value fails exactly if a whole number with too many digits
stands in it, at whatever depth, and there is one way only to fail (`failsIf_plain`).
-/

namespace DocDirective

/-! ### Failing -/

/-- A step fails in one way at most, and exactly under a condition. -/
def FailsIf {ε α : Type} (x : Except ε α) (e : ε) (P : Prop) : Prop :=
  ∀ e', x = .error e' ↔ e' = e ∧ P

namespace FailsIf

variable {ε α β : Type} {x : Except ε α} {f : α → Except ε β} {e : ε} {P Q : Prop}

theorem ok (a : α) : FailsIf (.ok a) e False := by
  intro e'
  simp

theorem error : FailsIf (.error e : Except ε α) e True := by
  intro e'
  simp [eq_comm]

theorem congr (h : FailsIf x e P) (hpq : P ↔ Q) : FailsIf x e Q :=
  fun e' => (h e').trans (and_congr_right fun _ => hpq)

theorem not_of_ok {a : α} (h : FailsIf x e P) (hx : x = .ok a) : ¬ P :=
  fun hp => nomatch hx.symm.trans ((h e).2 ⟨rfl, hp⟩)

theorem of_error {e' : ε} (h : FailsIf x e P) (hx : x = .error e') : e' = e ∧ P :=
  (h e').1 hx

/-- Two steps fail if either does. -/
theorem bind (hx : FailsIf x e P) (hf : ∀ a, FailsIf (f a) e Q) : FailsIf (x >>= f) e (P ∨ Q) := by
  cases x with
  | error e' =>
    obtain ⟨rfl, hp⟩ := hx.of_error rfl
    exact error.congr (iff_of_true trivial (.inl hp))
  | ok a => exact (hf a).congr (or_iff_right (hx.not_of_ok rfl)).symm

/-- A row of steps fails if one of them does. -/
theorem mapM {p : α → Prop} {xs : List α} (hf : ∀ x, FailsIf (f x) e (p x)) :
    FailsIf (xs.mapM f) e (∃ x ∈ xs, p x) := by
  induction xs with
  | nil => exact (ok []).congr (by simp)
  | cons x xs ih =>
    rw [List.mapM_cons]
    refine ((hf x).bind fun y => ih.bind fun ys => ok (y :: ys)).congr ?_
    simp

end FailsIf

namespace Value

/-! ### Values without a text -/

/-- A whole number with too many digits to be written stands in the value. -/
inductive HoldsOverlong : Value → Prop
  | int {n : Int} (h : Overlong.limit < (Nat.toDigits 10 n.natAbs).length) : HoldsOverlong (.int n)
  | item {vs : List Value} {v : Value} (hv : v ∈ vs) (h : HoldsOverlong v) :
      HoldsOverlong (.list vs)
  | key {es : List (Value × Value)} {e : Value × Value} (he : e ∈ es) (h : HoldsOverlong e.1) :
      HoldsOverlong (.map es)
  | value {es : List (Value × Value)} {e : Value × Value} (he : e ∈ es) (h : HoldsOverlong e.2) :
      HoldsOverlong (.map es)

theorem not_holdsOverlong_null : ¬ HoldsOverlong .null := by
  rintro ⟨⟩

theorem not_holdsOverlong_bool (b : Bool) : ¬ HoldsOverlong (.bool b) := by
  rintro ⟨⟩

theorem not_holdsOverlong_float (x : Binary64) : ¬ HoldsOverlong (.float x) := by
  rintro ⟨⟩

theorem not_holdsOverlong_text (s : String) : ¬ HoldsOverlong (.text s) := by
  rintro ⟨⟩

theorem holdsOverlong_int_iff {n : Int} :
    HoldsOverlong (.int n) ↔ Overlong.limit < (Nat.toDigits 10 n.natAbs).length := by
  constructor
  · rintro ⟨h⟩
    exact h
  · exact .int

theorem holdsOverlong_int_iff_le {n : Int} :
    HoldsOverlong (.int n) ↔ 10 ^ Overlong.limit ≤ n.natAbs := by
  rw [holdsOverlong_int_iff, ← Nat.not_le, Nat.length_toDigits_le_iff (by decide) (by decide),
    Nat.not_lt]

theorem holdsOverlong_list_iff {vs : List Value} :
    HoldsOverlong (.list vs) ↔ ∃ v ∈ vs, v.HoldsOverlong := by
  constructor
  · rintro (_ | ⟨hv, h⟩)
    exact ⟨_, hv, h⟩
  · rintro ⟨v, hv, h⟩
    exact .item hv h

theorem holdsOverlong_map_iff {es : List (Value × Value)} :
    HoldsOverlong (.map es) ↔ ∃ e ∈ es, e.1.HoldsOverlong ∨ e.2.HoldsOverlong := by
  constructor
  · rintro (_ | _ | ⟨he, h⟩ | ⟨he, h⟩)
    · exact ⟨_, he, .inl h⟩
    · exact ⟨_, he, .inr h⟩
  · rintro ⟨e, he, h | h⟩
    · exact .key he h
    · exact .value he h

/-! ### Writing -/

theorem failsIf_intText (n : Int) :
    FailsIf (Numeral.intText n) .writing (HoldsOverlong (.int n)) := by
  intro o
  rw [holdsOverlong_int_iff, Numeral.intText]
  split
  · rename_i h
    simp [h, eq_comm]
  · rename_i h
    simp [h]

mutual

theorem failsIf_inspect : ∀ v : Value, FailsIf v.inspect .writing v.HoldsOverlong
  | .null    => (FailsIf.ok _).congr (iff_of_false id not_holdsOverlong_null)
  | .bool b  => (FailsIf.ok _).congr (iff_of_false id (not_holdsOverlong_bool b))
  | .int n   => failsIf_intText n
  | .float x => (FailsIf.ok _).congr (iff_of_false id (not_holdsOverlong_float x))
  | .text s  => (FailsIf.ok _).congr (iff_of_false id (not_holdsOverlong_text s))
  | .list vs => by
    refine ((failsIf_inspectItems vs).bind fun _ => FailsIf.ok _).congr ?_
    rw [or_false, holdsOverlong_list_iff]
  | .map es  => by
    refine ((failsIf_inspectEntries es).bind fun _ => FailsIf.ok _).congr ?_
    rw [or_false, holdsOverlong_map_iff]

theorem failsIf_inspectItems : ∀ vs : List Value,
    FailsIf (inspectItems vs) .writing (∃ v ∈ vs, v.HoldsOverlong)
  | []      => (FailsIf.ok _).congr (by simp)
  | v :: vs => by
    refine ((failsIf_inspect v).bind fun _ =>
      (failsIf_inspectItems vs).bind fun _ => FailsIf.ok _).congr ?_
    simp

theorem failsIf_inspectEntries : ∀ es : List (Value × Value),
    FailsIf (inspectEntries es) .writing (∃ e ∈ es, e.1.HoldsOverlong ∨ e.2.HoldsOverlong)
  | []           => (FailsIf.ok _).congr (by simp)
  | (k, v) :: es => by
    refine ((failsIf_inspect k).bind fun _ => (failsIf_inspect v).bind fun _ =>
      (failsIf_inspectEntries es).bind fun _ => FailsIf.ok _).congr ?_
    simp [or_assoc]

end

/-- Writing a value fails exactly if a whole number with too many digits stands in it. -/
theorem failsIf_plain (v : Value) : FailsIf v.plain .writing v.HoldsOverlong := by
  cases v with
  | text s => exact (FailsIf.ok s).congr (iff_of_false id (not_holdsOverlong_text s))
  | _      => exact failsIf_inspect _

end Value

end DocDirective
