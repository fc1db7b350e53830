import DocDirective.Proofs.Kind.Contribution
import DocDirective.Proofs.Text.Casing

/-!
# Proofs — Kind — Proper

What a directive says behind its checks is proper: a method that routes answer to, a type that
columns have, a relation with an action that relations take (`proper_builtins`).  The checks look at
words folded to one letter case; the changes fold or capitalize them once more.
-/

namespace DocDirective

/-! ### What is proper -/

/-- What may happen to related objects, as it is recorded. -/
def Relation.actions : List (Option String) :=
  [none, some "Cascade", some "Delete", some "Nullify"]

/-- A relation of either kind, with one of the actions, and with a class in between only where
there can be many objects. -/
structure Relation.Proper (r : Relation) : Prop where
  kind     : r.kind = "has_many" ∨ r.kind = "belongs_to"
  onDelete : r.onDelete ∈ Relation.actions
  through  : r.kind = "belongs_to" → r.through = none

/-- A contribution that a descriptor may take over. -/
def Contribution.Proper : Contribution → Prop
  | .routesPrefix _ => True
  | .table _        => True
  | .source _       => True
  | .route r        => r.method ∈ Kind.httpMethods
  | .column c       => c.type ∈ Kind.columnTypes
  | .relation r     => r.Proper

namespace Kind

open Contribution Invocation

variable {k : Kind} {ps : Parameters} {t : Target}

/-! ### Actions on deletion -/

/-- A word in any case is capitalized as it is in lower case. -/
theorem capitalized_of_lowered {s : String} {cs : List Char} {c : Char}
    (hc : c ∈ Text.plainLetters) (h : Text.lowered s = String.ofList (c :: cs)) :
    Text.capitalized s = String.ofList (c.toUpper :: cs) := by
  have hlower : Text.lower s.toList = c :: cs := String.ofList_injective h
  rw [Text.capitalized, Text.capitalize_of_lower hc hlower]

/-- The actions on deletion in lower case, and as they are recorded. -/
def actionTitles : List (String × String) :=
  [("cascade", "Cascade"), ("delete", "Delete"), ("nullify", "Nullify")]

theorem actionTitle_of_lowered {s word title : String} (hmem : (word, title) ∈ actionTitles)
    (h : Text.lowered s = word) : actionTitle (some s) = some title := by
  have hne : word ≠ "" := by
    rintro rfl
    simp [actionTitles] at hmem
  have hempty : s.isEmpty = false := by
    rw [Bool.eq_false_iff]
    intro hempty
    rw [String.isEmpty_iff.1 hempty] at h
    exact hne h.symm
  simp only [actionTitle, hempty, Bool.false_eq_true, if_false]
  simp only [actionTitles, List.mem_cons, Prod.mk.injEq, List.not_mem_nil, or_false] at hmem
  rcases hmem with ⟨rfl, rfl⟩ | ⟨rfl, rfl⟩ | ⟨rfl, rfl⟩
  · rw [capitalized_of_lowered (c := 'c') (by decide) (h.trans (String.ofList_toList).symm)]
    rfl
  · rw [capitalized_of_lowered (c := 'd') (by decide) (h.trans (String.ofList_toList).symm)]
    rfl
  · rw [capitalized_of_lowered (c := 'n') (by decide) (h.trans (String.ofList_toList).symm)]
    rfl

/-- An action on deletion is one of those, in any case. -/
theorem exists_title {word : String} (h : word ∈ onDeleteActions) :
    ∃ title, (word, title) ∈ actionTitles ∧ some title ∈ Relation.actions := by
  simp only [onDeleteActions, List.mem_cons, List.not_mem_nil, or_false] at h
  rcases h with rfl | rfl | rfl <;> simp [actionTitles, Relation.actions]

/-- What the checks of a relation leave of the action on deletion. -/
theorem Relates.action {c : Convention} (hr : Relates k c)
    (hs : ∀ c ∈ k.checks, c.complaints ⟨k.name, some ps, some t⟩ = []) :
    actionTitle (keyedText ps "ondelete") ∈ Relation.actions := by
  obtain ⟨-, -, hactions⟩ := hr.silent_iff.1 hs
  rw [keyedText]
  cases hv : ps.keyed.get? "ondelete" with
  | none => exact List.mem_cons_self
  | some v =>
    obtain ⟨s, rfl, hs⟩ := hactions v hv
    obtain ⟨title, htitle, hrecorded⟩ := exists_title hs
    have hsays : actionTitle (some s) = some title := actionTitle_of_lowered htitle rfl
    exact hsays ▸ hrecorded

/-! ### Behind the checks -/

/-- The kinds that are always there are told apart by their names. -/
theorem eq_of_name {k' : Kind} (hk : k ∈ builtins) (hk' : k' ∈ builtins)
    (h : k.name = k'.name) : k = k' :=
  List.inj_on_of_nodup_map (f := Kind.name) (by decide) hk hk' h

theorem proper_route {r : RouteEntry}
    (hs : ∀ c ∈ route.checks, c.complaints ⟨route.name, some ps, some t⟩ = [])
    (hsaid : of? t "Route" ps = some (.route r)) : (Contribution.route r).Proper := by
  obtain ⟨-, m, v, hvalues, hmethod, -⟩ := silent_route_iff.1 hs
  rw [of?.eq_def, hvalues] at hsaid
  obtain ⟨path, -, hroute⟩ := Option.map_eq_some_iff.1 hsaid
  cases hroute
  exact hmethod

theorem proper_column {c : Column} (hsaid : of? t "Column" ps = some (.column c)) :
    (Contribution.column c).Proper := by
  rw [of?.eq_def] at hsaid
  simp only at hsaid
  split at hsaid
  · rename_i type htype
    cases hsaid
    exact (mem_of_filter_isWordOf htype).2
  · cases hsaid

theorem proper_hasMany {r : Relation}
    (hs : ∀ c ∈ hasMany.checks, c.complaints ⟨hasMany.name, some ps, some t⟩ = [])
    (hsaid : of? t "HasMany" ps = some (.relation r)) : (Contribution.relation r).Proper := by
  obtain ⟨-, ⟨n, hvalues⟩, -⟩ := Relates.hasMany.silent_iff.1 hs
  rw [of?.eq_def, hvalues] at hsaid
  cases hsaid
  refine ⟨.inl rfl, Relates.hasMany.action hs, fun h => ?_⟩
  exact absurd h (by simp [relationOf, hasManyConvention])

theorem proper_belongsTo {r : Relation}
    (hd : ∀ e ∈ ps.keyed.entries, Declared belongsTo.fields e)
    (hs : ∀ c ∈ belongsTo.checks, c.complaints ⟨belongsTo.name, some ps, some t⟩ = [])
    (hsaid : of? t "BelongsTo" ps = some (.relation r)) : (Contribution.relation r).Proper := by
  obtain ⟨-, ⟨n, hvalues⟩, -⟩ := Relates.belongsTo.silent_iff.1 hs
  rw [of?.eq_def, hvalues] at hsaid
  cases hsaid
  refine ⟨.inr rfl, Relates.belongsTo.action hs, fun _ => ?_⟩
  have hnone : belongsTo.fields.get? "through" = none := rfl
  show keyedText ps "through" = none
  rw [keyedText, get?_undeclared hd hnone]
  rfl

/-- **What a directive says behind its checks is proper.** -/
theorem proper_builtins {name : String} {c : Contribution} (hk : k ∈ builtins)
    (hname : k.name = name ++ suffix) (hd : ∀ e ∈ ps.keyed.entries, Declared k.fields e)
    (hs : ∀ c ∈ k.checks, c.complaints ⟨k.name, some ps, some t⟩ = [])
    (hsaid : of? t name ps = some c) (hsayer : name ∈ c.sayers) : c.Proper := by
  cases c with
  | routesPrefix path => trivial
  | table n => trivial
  | source n => trivial
  | route r =>
    obtain rfl := List.mem_singleton.1 hsayer
    obtain rfl := eq_of_name hk (by simp [builtins] : route ∈ builtins) hname
    exact proper_route hs hsaid
  | column c =>
    obtain rfl := List.mem_singleton.1 hsayer
    exact proper_column hsaid
  | relation r =>
    obtain rfl | hsayer := List.mem_cons.1 hsayer
    · obtain rfl := eq_of_name hk (by simp [builtins] : hasMany ∈ builtins) hname
      exact proper_hasMany hs hsaid
    · obtain rfl := List.mem_singleton.1 hsayer
      obtain rfl := eq_of_name hk (by simp [builtins] : belongsTo ∈ builtins) hname
      exact proper_belongsTo hd hs hsaid

end Kind

end DocDirective
