import DocDirective.Proofs.Processor.Description
import DocDirective.Proofs.Value.Writing
import DocDirective.Report.Json
import DocDirective.Report.Record

/-!
# Proofs — Report — Printing

Which values can be printed.  Printing fails as writing does, exactly if a whole number with too
many digits stands in the value (`Json.failsIf_text`).  Of a descriptor only the defaults of its
columns and its attributes can hold such a number; the kinds that are always there set no
attributes, and a default is a value of a text, so that what they describe can be printed
(`Processor.prints_expandFresh`).
-/

namespace DocDirective

/-! ### Printing -/

namespace Json

theorem failsIf_scalarText (v : Value) : FailsIf (scalarText v) .writing v.HoldsOverlong := by
  cases v with
  | null    => exact (FailsIf.ok _).congr (iff_of_false id Value.not_holdsOverlong_null)
  | bool b  => exact (FailsIf.ok _).congr (iff_of_false id (Value.not_holdsOverlong_bool b))
  | int n   => exact Value.failsIf_intText n
  | float x => exact (FailsIf.ok _).congr (iff_of_false id (Value.not_holdsOverlong_float x))
  | text s  => exact (FailsIf.ok _).congr (iff_of_false id (Value.not_holdsOverlong_text s))
  | list vs => exact Value.failsIf_inspect (.list vs)
  | map es  => exact Value.failsIf_inspect (.map es)

mutual

theorem failsIf_print (level : Nat) :
    ∀ v : Value, FailsIf (print level v) .writing v.HoldsOverlong
  | .null    => failsIf_scalarText .null
  | .bool b  => failsIf_scalarText (.bool b)
  | .int n   => failsIf_scalarText (.int n)
  | .float x => failsIf_scalarText (.float x)
  | .text s  => (FailsIf.ok _).congr (iff_of_false id (Value.not_holdsOverlong_text s))
  | .list vs => by
    refine ((failsIf_printItems (level + 1) vs).bind fun _ => FailsIf.ok _).congr ?_
    rw [or_false, Value.holdsOverlong_list_iff]
  | .map es  => by
    refine ((failsIf_printEntries (level + 1) es).bind fun _ => FailsIf.ok _).congr ?_
    rw [or_false, Value.holdsOverlong_map_iff]

theorem failsIf_printItems (level : Nat) : ∀ vs : List Value,
    FailsIf (printItems level vs) .writing (∃ v ∈ vs, v.HoldsOverlong)
  | []      => (FailsIf.ok _).congr (by simp)
  | v :: vs => by
    refine ((failsIf_print level v).bind fun _ =>
      (failsIf_printItems level vs).bind fun _ => FailsIf.ok _).congr ?_
    simp

theorem failsIf_printEntries (level : Nat) : ∀ es : List (Value × Value),
    FailsIf (printEntries level es) .writing (∃ e ∈ es, e.1.HoldsOverlong ∨ e.2.HoldsOverlong)
  | []           => (FailsIf.ok _).congr (by simp)
  | (k, v) :: es => by
    refine ((failsIf_scalarText k).bind fun _ => (failsIf_print level v).bind fun _ =>
      (failsIf_printEntries level es).bind fun _ => FailsIf.ok _).congr ?_
    simp [or_assoc]

end

/-- Printing a value fails exactly if a whole number with too many digits stands in it. -/
theorem failsIf_text (v : Value) : FailsIf (text v) .writing v.HoldsOverlong := failsIf_print 0 v

end Json

/-! ### Records -/

theorem Value.holdsOverlong_record_iff {fields : List (String × Value)} :
    (record fields).HoldsOverlong ↔ ∃ f ∈ fields, f.2.HoldsOverlong := by
  rw [record, holdsOverlong_map_iff]
  constructor
  · rintro ⟨e, he, hheld⟩
    obtain ⟨f, hf, rfl⟩ := List.mem_map.1 he
    exact ⟨f, hf, hheld.resolve_left (not_holdsOverlong_text f.1)⟩
  · rintro ⟨f, hf, hheld⟩
    exact ⟨_, List.mem_map_of_mem hf, .inr hheld⟩

theorem Value.not_holdsOverlong_ofText? (s? : Option String) : ¬(ofText? s?).HoldsOverlong := by
  cases s? with
  | none => exact not_holdsOverlong_null
  | some s => exact not_holdsOverlong_text s

theorem RouteEntry.not_holdsOverlong_record (r : RouteEntry) : ¬r.record.HoldsOverlong := by
  simp [record, Value.holdsOverlong_record_iff, Value.not_holdsOverlong_text,
    Value.not_holdsOverlong_ofText?]

theorem Column.holdsOverlong_record_iff {c : Column} :
    c.record.HoldsOverlong ↔ c.default.HoldsOverlong := by
  simp [record, Value.holdsOverlong_record_iff, Value.not_holdsOverlong_text,
    Value.not_holdsOverlong_bool]

theorem Relation.not_holdsOverlong_record (r : Relation) : ¬r.record.HoldsOverlong := by
  simp [record, Value.holdsOverlong_record_iff, Value.not_holdsOverlong_text,
    Value.not_holdsOverlong_ofText?]

/-- Numbers stand in the defaults of columns and in attributes only. -/
theorem Descriptor.holdsOverlong_record_iff {d : Descriptor} :
    d.record.HoldsOverlong ↔ (∃ c ∈ d.columns, c.default.HoldsOverlong)
      ∨ ∃ e ∈ d.attributes.entries, e.2.HoldsOverlong := by
  simp [record, Value.holdsOverlong_record_iff, Value.not_holdsOverlong_text,
    Value.not_holdsOverlong_ofText?, Value.holdsOverlong_list_iff,
    RouteEntry.not_holdsOverlong_record, Relation.not_holdsOverlong_record,
    Column.holdsOverlong_record_iff, Value.ofKeyed]

/-! ### What the kinds that are always there describe -/

theorem Value.Single.not_holdsOverlong {v : Value} (h : v.Single) : ¬v.HoldsOverlong := by
  cases h with
  | bool b => exact not_holdsOverlong_bool b
  | int h =>
    obtain ⟨s, hs⟩ := h
    exact (failsIf_intText _).not_of_ok hs
  | float x => exact not_holdsOverlong_float x
  | text s => exact not_holdsOverlong_text s

theorem Value.Flat.not_holdsOverlong {v : Value} (h : v.Flat) : ¬v.HoldsOverlong := by
  cases h with
  | single h => exact h.not_holdsOverlong
  | list h =>
    rw [holdsOverlong_list_iff]
    rintro ⟨v, hv, hheld⟩
    exact (h v hv).not_holdsOverlong hheld

/-- The default of a column is the value under a key, or null. -/
theorem Contribution.not_holdsOverlong_default {t : Target} {name : String} {ps : Parameters}
    {c : Column} (hps : ps.Flat) (h : of? t name ps = some (.column c)) :
    ¬c.default.HoldsOverlong := by
  have hdefault (type : String) : ¬(columnOf t.name type ps).default.HoldsOverlong := by
    simp only [columnOf]
    cases hv : ps.keyed.get? "default" with
    | none => exact Value.not_holdsOverlong_null
    | some v => exact (hps.keyed _ (Keyed.get?_eq_some_iff.1 hv)).not_holdsOverlong
  unfold of? at h
  split at h
  case h_5 =>
    split at h
    · cases h
      exact hdefault _
    · cases h
  all_goals simp at h

namespace Processor

theorem descriptor_expandFresh (s : ClassSource) :
    (({} : Processor).expandFresh s).descriptor = describe s.target.className
      (((({} : Processor).expandFresh s).attempts.filter (·.succeeded)).filterMap (·.said?)) := by
  have hchain := (chain_attempts (p := {}) s.directives { className := s.target.className }).2
  exact hchain.describes rfl (describe_nil s.target.className).symm

/-- A class is described under its own name. -/
theorem className_expandFresh (s : ClassSource) :
    (({} : Processor).expandFresh s).descriptor.className = s.target.className := by
  rw [descriptor_expandFresh]
  rfl

/-- Every column of a description is one that a directive says. -/
theorem exists_said_of_mem_columns {s : ClassSource} {c : Column}
    (h : c ∈ (({} : Processor).expandFresh s).descriptor.columns) :
    ∃ a : Attempt, a.said? = some (.column c) := by
  rw [descriptor_expandFresh] at h
  obtain ⟨said, hsaid, hcolumn⟩ := List.mem_filterMap.1 h
  obtain ⟨a, -, ha⟩ := List.mem_filterMap.1 hsaid
  cases said with
  | column c' =>
    cases hcolumn
    exact ⟨a, ha⟩
  | _ => cases hcolumn

/-- **What the kinds that are always there describe can be printed.** -/
theorem prints_expandFresh (s : ClassSource) :
    ¬(({} : Processor).expandFresh s).descriptor.record.HoldsOverlong := by
  rw [Descriptor.holdsOverlong_record_iff]
  rintro (⟨c, hc, hheld⟩ | ⟨e, he, -⟩)
  · obtain ⟨a, ha⟩ := exists_said_of_mem_columns hc
    unfold Attempt.said? at ha
    split at ha
    · rename_i ps heval
      exact Contribution.not_holdsOverlong_default (Arguments.evaluate_flat heval) ha hheld
    · cases ha
  · rw [descriptor_expandFresh] at he
    cases he

end Processor

end DocDirective
