import DocDirective.Kind.Rule

/-!
# Proofs — Kind — Rule

What each rule asks of the parameters and the element.  A rule that can word all its complaints has
none exactly where what it asks for holds.
-/

namespace DocDirective

/-- Every complaint could be worded. -/
def Quiet (cs : Complaints) : Prop := ∀ c ∈ cs, ∃ m, c = .ok m

namespace Rule

/-- What a rule asks for. -/
def Holds (p : Parameters) (t : Target) : Rule → Prop
  | .acceptedKeys keys                        =>
    ∀ k ∈ p.keyed.keys, ∃ key ∈ keys, Text.lowered key = k
  | .requiredKeys keys                        => ∀ key ∈ keys, p.has key = true
  | .acceptedKeylessValues values case?       =>
    ∀ v ∈ p.positional, (foldBy case? v).isIn values = true
  | .acceptedIndexedValues index values case? =>
    ∃ v, valueAt p.positional index = some v ∧ (foldBy case? v).isIn values = true
  | .acceptedValuesForKey key values case?    =>
    ∀ v, p.get? (Text.lowered key) = some v → (foldBy case? v).isIn values = true
  | .acceptsNoKeylessValues                   => p.positional = []
  | .acceptsNoKeyedValues                     => p.keyed.keys = []
  | .validOnSubclassesOf annotated base       => t.className = annotated ∧ base ∈ t.ancestors
  | .minimumCount n                           => n ≤ p.size
  | .maximumCount n                           => p.size ≤ n
  | .exactCount n                             => (p.size : Int) = n

theorem demand_eq_nil_iff {holds : Bool} {complaint : String} :
    demand holds complaint = [] ↔ holds = true := by
  unfold demand
  split <;> simp_all

theorem misfit_ne_nil (subject : String) (v : Value) (valid : String) :
    misfit subject v valid ≠ [] := by
  simp [misfit, worded]

theorem keyComplaints_eq_nil_iff {keys : List String} {p : Parameters} :
    keyComplaints keys p = [] ↔ ∀ k ∈ p.keyed.keys, ∃ key ∈ keys, Text.lowered key = k := by
  simp [keyComplaints]

/-- Where the accepted keys are in lower case, they are looked for as they stand. -/
theorem keyComplaints_of_lowered {keys : List String} {p : Parameters}
    (hkeys : keys.map Text.lowered = keys) :
    keyComplaints keys p = [] ↔ ∀ k ∈ p.keyed.keys, k ∈ keys := by
  simp [keyComplaints, hkeys]

theorem keylessComplaints_eq_nil_iff {values : List Value} {case? : Option Case} {p : Parameters} :
    keylessComplaints values case? p = []
      ↔ ∀ v ∈ p.positional, (foldBy case? v).isIn values = true := by
  simp [keylessComplaints, worded]

/-- The values allowed in a place can be told where the complaints about it could be worded. -/
theorem displayAll_of_quiet {index : Int} {values : List Value} {case? : Option Case}
    {p : Parameters} (hq : Quiet (indexedComplaints index values case? p)) :
    ∃ valid, Value.displayAll values = .ok valid := by
  cases hvalid : Value.displayAll values with
  | ok valid => exact ⟨valid, rfl⟩
  | error o =>
    simp only [indexedComplaints, hvalid] at hq
    obtain ⟨m, hm⟩ := hq _ List.mem_cons_self
    cases hm

theorem indexedComplaints_eq_nil_iff {index : Int} {values : List Value} {case? : Option Case}
    {p : Parameters} {valid : String} (hvalid : Value.displayAll values = .ok valid) :
    indexedComplaints index values case? p = []
      ↔ ∃ v, valueAt p.positional index = some v ∧ (foldBy case? v).isIn values = true := by
  simp only [indexedComplaints, hvalid]
  split
  · -- the place lies behind the last value
    rename_i hlen
    have hnone : valueAt p.positional index = none := by
      rw [valueAt, if_pos (by omega)]
      exact List.getElem?_eq_none (by omega)
    simp [hnone]
  · cases valueAt p.positional index with
    | none => simp
    | some v =>
      cases hin : (foldBy case? v).isIn values with
      | true => simp [hin]
      | false => simp [hin, misfit_ne_nil]

theorem keyedComplaints_eq_nil_iff {key : String} {values : List Value} {case? : Option Case}
    {p : Parameters} :
    keyedComplaints key values case? p = []
      ↔ ∀ v, p.get? (Text.lowered key) = some v → (foldBy case? v).isIn values = true := by
  simp only [keyedComplaints]
  cases p.get? (Text.lowered key) with
  | none => simp
  | some v =>
    cases hin : (foldBy case? v).isIn values with
    | true => simp [hin]
    | false =>
      simp only [hin, Bool.false_eq_true, if_false, Option.some.injEq, forall_eq', iff_false]
      split
      · simp
      · simp [misfit_ne_nil]

theorem mem_ancestorsOf {t : Target} {annotated base : String} :
    base ∈ ancestorsOf (some t) annotated ↔ t.className = annotated ∧ base ∈ t.ancestors := by
  unfold ancestorsOf
  split <;> simp_all

/-- **A rule complains exactly where what it asks for does not hold.** -/
theorem complaints_eq_nil_iff {kind : String} {p : Parameters} {t : Target} {r : Rule}
    (hq : Quiet (r.complaints ⟨kind, some p, some t⟩)) :
    r.complaints ⟨kind, some p, some t⟩ = [] ↔ r.Holds p t := by
  cases r with
  | acceptedKeys keys => exact keyComplaints_eq_nil_iff
  | requiredKeys keys =>
    simp [complaints, Subject.withParameters, demand_eq_nil_iff, Holds]
  | acceptedKeylessValues values case? => exact keylessComplaints_eq_nil_iff
  | acceptedIndexedValues index values case? =>
    obtain ⟨valid, hvalid⟩ := displayAll_of_quiet hq
    exact indexedComplaints_eq_nil_iff hvalid
  | acceptedValuesForKey key values case? => exact keyedComplaints_eq_nil_iff
  | acceptsNoKeylessValues =>
    refine keylessComplaints_eq_nil_iff.trans ?_
    simp [Holds, Value.isIn, List.eq_nil_iff_forall_not_mem]
  | acceptsNoKeyedValues =>
    refine keyComplaints_eq_nil_iff.trans ?_
    simp [Holds, List.eq_nil_iff_forall_not_mem]
  | validOnSubclassesOf annotated base =>
    refine demand_eq_nil_iff.trans ?_
    rw [decide_eq_true_eq]
    exact mem_ancestorsOf
  | minimumCount n => exact demand_eq_nil_iff.trans decide_eq_true_iff
  | maximumCount n => exact demand_eq_nil_iff.trans decide_eq_true_iff
  | exactCount n => exact demand_eq_nil_iff.trans decide_eq_true_iff

end Rule

end DocDirective
