import DocDirective.Proofs.Kind.Acceptance

/-!
# Proofs — Kind — Pointing

Where relations point.  A relation tells the class that it leads to and the key that it goes by.
Either may be left open, and a name by the convention of the kind then stands for it.  The name for
a key is never empty.  The name for a class is empty where the relation has no name, and in one
case besides: the singular of `s` has no letters left (`singular_eq_empty_iff`), so that a relation
to many of that name leads to no class (`relation_points`).
-/

namespace DocDirective

/-- A key is left open if it is missing, or if the empty text stands under it. -/
def Parameters.LeavesOpen (ps : Parameters) (key : String) : Prop :=
  ∀ v, ps.keyed.get? key = some v → v = .text ""

namespace Kind

open Contribution Invocation

variable {k : Kind} {c : Convention} {ps : Parameters} {t : Target} {d : Descriptor}

/-! ### Names by convention -/

/-- The ending of the plural is all of one name only.  A longer ending is taken off longer names
only, and leaves a letter of its own. -/
theorem singular_eq_empty_iff {name : String} : singular name = "" ↔ name = "" ∨ name = "s" := by
  obtain ⟨cs, rfl⟩ : ∃ cs, name = String.ofList cs := ⟨name.toList, String.ofList_toList.symm⟩
  have hletter : "s" = String.ofList ['s'] := rfl
  rw [hletter, String.ofList_eq_empty_iff, String.ofList_inj]
  simp only [singular, String.toList_ofList, Bool.and_eq_true, decide_eq_true_eq,
    List.isSuffixOf_iff_suffix, Bool.not_eq_true', Bool.eq_false_iff, ne_eq]
  split_ifs with hlong hone
  · -- a letter is put behind the stem, and the name is longer than either of the two
    obtain ⟨-, hlen⟩ := hlong
    refine iff_of_false (by simp) ?_
    rintro (rfl | rfl) <;> simp at hlen
  · -- what stands in front of the last letter is left
    obtain ⟨⟨ds, rfl⟩, -⟩ := hone
    simp
  · -- the name stays as it is, so that it is not the letter
    rw [String.ofList_eq_empty_iff, iff_self_or]
    rintro rfl
    exact absurd (by decide) hone

namespace Relates

/-- The class that stands for one that is not given has no name if the relation has none, or if it
is a relation to many that is named by the ending of the plural. -/
theorem defaultClass_eq_empty_iff (hr : Relates k c) {name : String} :
    c.defaultClass name = "" ↔ name = "" ∨ k = Kind.hasMany ∧ name = "s" := by
  cases hr with
  | hasMany => simp [Text.upperFirst_eq_empty_iff, singular_eq_empty_iff]
  | belongsTo =>
    have hkinds : Kind.belongsTo ≠ Kind.hasMany :=
      fun h => absurd (congrArg Kind.name h) (by decide)
    simp [Text.upperFirst_eq_empty_iff, hkinds]

theorem defaultKey_ne_empty (hr : Relates k c) (name className : String) :
    c.defaultKey name className ≠ "" := by
  cases hr <;> simp [String.append_eq_empty_iff]

end Relates

/-! ### Keys that are left open -/

theorem orDefault_eq_empty_iff {given : Option String} {standard : String} :
    orDefault given standard = "" ↔ (∀ s, given = some s → s = "") ∧ standard = "" := by
  cases given with
  | none => simp [orDefault]
  | some s =>
    simp only [orDefault, String.isEmpty_iff, Option.some.injEq, forall_eq']
    split_ifs with hs <;> simp [hs]

/-- A key whose value is converted is left open if no characters come of it. -/
theorem leavesOpen_iff {key : String}
    (h : ∀ v, ps.keyed.get? key = some v → ∃ s, v.asText = .ok s) :
    ps.LeavesOpen key ↔ ∀ s, keyedText ps key = some s → s = "" := by
  rw [Parameters.LeavesOpen]
  obtain ⟨hv, htext⟩ | ⟨v, s, hv, hs, htext⟩ := keyedText_cases h
  · simp [hv, htext]
  · simp only [hv, htext, Option.some.injEq, forall_eq']
    rw [← Value.asText_eq_empty_iff, hs, Except.ok.injEq]

/-! ### Relations that go through -/

/-- **A relation that goes through has a key, and it leads to a class with one exception.**
Whatever its parameters are, it adds one relation, under its name.  The key of the relation is not
empty, whether one is given, left open or missing.  Its class is empty exactly if the class is left
open and no name comes of the relation's own: that name is empty, or it is the `s` of a relation to
many. -/
theorem relation_points (hr : Relates k c) (h : ((new k ps).expand t d).fault = none) :
    ∃ r, ((new k ps).expand t d).descriptor = { d with relations := d.relations ++ [r] }
      ∧ ps.positional = [.text r.name]
      ∧ r.foreignKey ≠ ""
      ∧ (r.targetClass = ""
        ↔ ps.LeavesOpen "class" ∧ (r.name = "" ∨ k = hasMany ∧ r.name = "s")) := by
  obtain ⟨-, hs, hd, -⟩ := (fault_eq_none_iff hr.mem hr.mask_eq).1 h
  obtain ⟨-, ⟨name, hname⟩, -⟩ := hr.silent_iff.1 hs
  have hadds : ((new k ps).expand t d).descriptor
      = d.addRelation (relationOf c t.className name ps) :=
    (expands_of_fault_eq_none hr.mem hr.mask_eq h).unique (hr.expands hd hname)
  have hclass (v : Value) (hv : ps.keyed.get? "class" = some v) : ∃ s, v.asText = .ok s :=
    asText_of_declared hr.convert_eq (hd _ (Keyed.get?_eq_some_iff.1 hv))
  refine ⟨relationOf c t.className name ps, hadds, hname, fun hkey => ?_, ?_⟩
  · exact hr.defaultKey_ne_empty _ _ (orDefault_eq_empty_iff.1 hkey).2
  · rw [leavesOpen_iff hclass, ← hr.defaultClass_eq_empty_iff]
    exact orDefault_eq_empty_iff

/-- `!HasMany s, Class: ""` goes through, and leads to no class. -/
theorem relation_points_letter :
    let ps : Parameters := ⟨[.text "s"], .ofList [("class", .text "")]⟩
    let x := (new hasMany ps).expand (limitTarget .ofClass) { className := "User" }
    Relates hasMany hasManyConvention ∧ x.fault = none
      ∧ ∃ r, x.descriptor = { className := "User", relations := [r] }
        ∧ r.foreignKey ≠ "" ∧ r.targetClass = "" := by
  intro ps x
  have hfault : x.fault = none := by decide +kernel
  obtain ⟨r, hadds, hname, hkey, hclass⟩ := relation_points .hasMany hfault
  have hopen : ps.LeavesOpen "class" := by
    intro v hv
    cases hv
    rfl
  have hletter : r.name = "s" := by simpa [ps] using hname.symm
  exact ⟨.hasMany, hfault, r, hadds, hkey, hclass.2 ⟨hopen, .inr ⟨rfl, hletter⟩⟩⟩

end Kind

end DocDirective
