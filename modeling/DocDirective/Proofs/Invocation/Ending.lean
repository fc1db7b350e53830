import DocDirective.Proofs.Invocation.Lifecycle
import DocDirective.Proofs.Kind.Builtins

/-!
# Proofs — Invocation — Ending

The states that an expansion from the first state ends in.  Three things can end it early.  There
may be no verdict, since the kind does not say where it applies, or a check cannot word a complaint,
or the parameters are out of reach, or a conversion breaks down; there may be something to complain
about; or the kind's own change may end in a fault.  Only the second of these leaves an invocation
that has failed (`expand_ends`): the third leaves it bound, and the first where the look at the
element has left it.  For the kinds that are always there, with the values of a text, a list in
place of a single name is the one fault that is not the second (`builtin_ends`).
-/

namespace DocDirective

/-- The kind says where it applies, and it applies to the element. -/
def Kind.AppliesTo (k : Kind) (t : Target) : Prop :=
  ∃ mask, k.mask = some mask ∧ mask.contains t.kind = true

namespace Invocation

variable {i : Invocation} {p : Parameters} {t : Target} {d : Descriptor}

/-- An expansion comes to a verdict about the element: the kind says where it applies, its checks
can word whatever they find, and the parameters are there, with conversions that do not break
down. -/
structure Judges (i : Invocation) (t : Target) : Prop where
  placed : ∃ mask, i.kind.mask = some mask
  quiet  : ∀ c ∈ i.kind.checks, Quiet (c.complaints (i.retarget t).subject)
  steady : ∃ p, i.parameters = some p ∧ Steady i.kind.fields p.keyed.entries

/-- There is nothing to complain about, now or before. -/
structure Passes (i : Invocation) (t : Target) : Prop where
  errors   : i.errors = []
  applies  : i.kind.AppliesTo t
  silent   : ∀ c ∈ i.kind.checks, c.complaints (i.retarget t).subject = []
  declared : ∃ p, i.parameters = some p ∧ ∀ e ∈ p.keyed.entries, Declared i.kind.fields e

theorem Passes.judges (h : i.Passes t) : i.Judges t := by
  obtain ⟨mask, hmask, -⟩ := h.applies
  obtain ⟨p, hp, hdeclared⟩ := h.declared
  exact ⟨⟨mask, hmask⟩, fun c hc => Kind.quiet_of_eq_nil (h.silent c hc),
    ⟨p, hp, steady_of_declared hdeclared⟩⟩

/-! ### What is found -/

theorem errors_started_eq_nil_iff {mask : Mask} :
    (i.started mask t).errors = [] ↔ i.errors = [] ∧ mask.contains t.kind = true := by
  unfold started
  by_cases hin : mask.contains t.kind = true
  · simp [hin]
  · simp [hin, note_ne_nil]

theorem stage_started (i : Invocation) (mask : Mask) (t : Target) :
    (i.started mask t).stage = if mask.contains t.kind then .typeChecked else i.stage := by
  unfold started
  split <;> rfl

/-- Everything that an invocation has to say in the end, where its checks come to a verdict. -/
def verdict (i : Invocation) (mask : Mask) (p : Parameters) (t : Target) : List String :=
  (p.keyed.entries.filterMap (conversionText? i.kind.fields)).foldl note
    (Check.noted (i.retarget t).subject ((i.retarget t).started mask t).errors i.kind.checks)

theorem verdict_eq_nil_iff {mask : Mask} (hmask : i.kind.mask = some mask)
    (hp : i.parameters = some p)
    (hq : ∀ c ∈ i.kind.checks, Quiet (c.complaints (i.retarget t).subject))
    (hsteady : Steady i.kind.fields p.keyed.entries) :
    i.verdict mask p t = [] ↔ i.Passes t := by
  rw [verdict, Check.foldl_eq_nil_iff note_ne_nil, Check.noted_eq_nil_iff hq,
    errors_started_eq_nil_iff, conversionTexts_eq_nil_iff hsteady]
  constructor
  · rintro ⟨⟨⟨herrors, hin⟩, hsilent⟩, hdeclared⟩
    exact ⟨herrors, ⟨mask, hmask, hin⟩, hsilent, ⟨p, hp, hdeclared⟩⟩
  · rintro ⟨herrors, ⟨mask', hmask', hin⟩, hsilent, ⟨p', hp', hdeclared⟩⟩
    obtain rfl := Option.some.inj (hmask.symm.trans hmask')
    obtain rfl := Option.some.inj (hp.symm.trans hp')
    exact ⟨⟨⟨herrors, hin⟩, hsilent⟩, hdeclared⟩

/-! ### How an expansion ends -/

/-- How an expansion from the first state ends: without a verdict, with one that has something to
say, or with the kind's own change. -/
inductive Ending (i : Invocation) (t : Target) (d : Descriptor) : Expansion → Prop where
  | misplaced {j : Invocation} {f : Fault} (hjudges : ¬i.Judges t) (happlies : ¬i.kind.AppliesTo t)
      (hstage : j.stage = .parsed) : Ending i t d ⟨j, d, some f⟩
  | interrupted {j : Invocation} {f : Fault} (hjudges : ¬i.Judges t) (happlies : i.kind.AppliesTo t)
      (hstage : j.stage = .typeChecked) : Ending i t d ⟨j, d, some f⟩
  | rejected {j : Invocation} {e : AnnotationError} (hjudges : i.Judges t) (hpasses : ¬i.Passes t)
      (hstage : j.stage = .failed) : Ending i t d ⟨j, d, some (.reported e)⟩
  | begun {j : Invocation} {p : Parameters} {slots : Keyed Value} {d' : Descriptor}
      {f? : Option Fault} (hpasses : i.Passes t) (hp : i.parameters = some p)
      (hstage : j.stage = if f?.isNone then .expanded else .bound)
      (hchange : i.kind.expand ⟨i.kind.name, p.positional, slots, t⟩ d = (d', f?)) :
      Ending i t d ⟨j, d', f?⟩

theorem begun_bindAndExpand {j : Invocation} (hkind : j.kind = i.kind) (hpasses : i.Passes t)
    (hp : i.parameters = some p) (b : Keyed Value) (d : Descriptor) :
    Ending i t d (bindAndExpand j p t b d) := by
  rw [bindAndExpand, hkind]
  cases hchange : i.kind.expand ⟨i.kind.name, p.positional, j.slots.insertAll b.entries, t⟩ d with
  | mk d' f? =>
    cases f? with
    | none => exact .begun hpasses hp rfl hchange
    | some f => exact .begun hpasses hp rfl hchange

/-- With a verdict, an expansion binds and goes on where there is nothing to say, and has failed
otherwise. -/
theorem ending_of_judges {mask : Mask} (hmask : i.kind.mask = some mask)
    (hp : i.parameters = some p)
    (hq : ∀ c ∈ i.kind.checks, Quiet (c.complaints (i.retarget t).subject))
    (hsteady : Steady i.kind.fields p.keyed.entries) (d : Descriptor) :
    Ending i t d ((i.retarget t).checkAndExpand mask t d) := by
  have hpasses := verdict_eq_nil_iff hmask hp hq hsteady
  have hconvert : convert i.kind.fields p.keyed.entries
      (Check.noted (i.retarget t).subject ((i.retarget t).started mask t).errors i.kind.checks)
        .empty = (i.verdict mask p t, _, none) := convert_eq hsteady ..
  have hexpand := checkAndExpand_eq (i.retarget t) mask t d
  have hkind : (i.retarget t).kind = i.kind := rfl
  have hkept : (i.retarget t).parameters = some p := hp
  simp only [hkind, hkept, Check.runAll_eq hq, hconvert] at hexpand
  rw [hexpand]
  cases hverdict : i.verdict mask p t with
  | nil =>
    have hstarted : ({ (i.retarget t).started mask t with errors := [] } : Invocation).kind
        = i.kind := (checked_started _ _ _).kind
    exact begun_bindAndExpand hstarted (hpasses.1 hverdict) hp _ d
  | cons e es =>
    have hfound : ¬i.Passes t := by
      intro h
      rw [hpasses.2 h] at hverdict
      cases hverdict
    exact .rejected ⟨⟨mask, hmask⟩, hq, ⟨p, hp, hsteady⟩⟩ hfound rfl

/-- Without a verdict, a fault leaves the invocation where the look at the element has left it. -/
theorem ending_of_stopped {mask : Mask} (hparsed : i.stage = .parsed)
    (hmask : i.kind.mask = some mask) (hjudges : ¬i.Judges t) {j : Invocation} {f : Fault}
    (hstage : j.stage = ((i.retarget t).started mask t).stage) :
    Ending i t d ⟨j, d, some f⟩ := by
  rw [stage_started] at hstage
  by_cases hin : mask.contains t.kind = true
  · rw [if_pos hin] at hstage
    exact .interrupted hjudges ⟨mask, hmask, hin⟩ hstage
  · rw [if_neg hin] at hstage
    refine .misplaced hjudges ?_ (hstage.trans hparsed)
    rintro ⟨mask', hmask', hin'⟩
    obtain rfl := Option.some.inj (hmask.symm.trans hmask')
    exact hin hin'

/-- The ways to miss a verdict: a complaint that cannot be worded, parameters that are out of reach,
and a conversion that breaks down. -/
theorem ending_of_not_judges {mask : Mask} (hparsed : i.stage = .parsed)
    (hmask : i.kind.mask = some mask) (hjudges : ¬i.Judges t) (d : Descriptor) :
    Ending i t d ((i.retarget t).checkAndExpand mask t d) := by
  have hkind : (i.retarget t).kind = i.kind := rfl
  have hparameters : (i.retarget t).parameters = i.parameters := rfl
  rw [checkAndExpand_eq]
  simp only [hkind, hparameters]
  cases hrun : Check.runAll (i.retarget t).subject ((i.retarget t).started mask t).errors
      i.kind.checks with
  | mk errors f? =>
    cases f? with
    | some f => exact ending_of_stopped hparsed hmask hjudges rfl
    | none =>
      have hq := Check.quiet_of_runAll (congrArg Prod.snd hrun)
      cases hp : i.parameters with
      | none => exact ending_of_stopped hparsed hmask hjudges rfl
      | some p =>
        have hfault := fault_convert i.kind.fields p.keyed.entries errors .empty
        have hbroken : p.keyed.entries.findSome? (breakdown? i.kind.fields) ≠ none :=
          fun h => hjudges ⟨⟨mask, hmask⟩, hq, ⟨p, hp, steady_iff.2 h⟩⟩
        obtain ⟨f, hf⟩ := Option.ne_none_iff_exists'.1 hbroken
        dsimp only
        generalize convert i.kind.fields p.keyed.entries errors .empty = c at hfault ⊢
        obtain ⟨es, converted, f?⟩ := c
        obtain rfl : f? = some f := hfault.trans hf
        exact ending_of_stopped hparsed hmask hjudges rfl

theorem ending_expand (hparsed : i.stage = .parsed) (t : Target) (d : Descriptor) :
    Ending i t d (i.expand t d) := by
  rw [expand, if_pos hparsed]
  cases hmask : i.kind.mask with
  | none =>
    have hnone (mask : Mask) : i.kind.mask ≠ some mask := by simp [hmask]
    refine .misplaced ?_ ?_ hparsed
    · intro h
      obtain ⟨mask, hsome⟩ := h.placed
      exact hnone mask hsome
    · rintro ⟨mask, h, -⟩
      exact hnone mask h
  | some mask =>
    by_cases hjudges : i.Judges t
    · obtain ⟨p, hp, hsteady⟩ := hjudges.steady
      exact ending_of_judges hmask hp hjudges.quiet hsteady d
    · exact ending_of_not_judges hparsed hmask hjudges d

/-- **Where an expansion ends.**  Whatever has been done to an invocation that is still in its first
state, an expansion goes through exactly if it leaves the invocation expanded.  One that ends in a
fault leaves it failed exactly if it comes to a verdict and there is something to complain about.
Where there is nothing, the fault is one of the kind's own change and the invocation is left bound;
and where there is no verdict, it has only been checked for the element, or is in its first state
still if the kind does not apply to that. -/
theorem expand_ends (k : Kind) (p : Parameters) (earlier : List Operation)
    (h : ((new k p).afterAll earlier).stage = .parsed) (t : Target) (d : Descriptor) :
    let i := (new k p).afterAll earlier
    let e := i.expand t d
    (e.fault = none ↔ e.invocation.stage = .expanded)
      ∧ (e.fault ≠ none →
        (e.invocation.stage = .failed ↔ i.Judges t ∧ ¬i.Passes t)
          ∧ (e.invocation.stage = .bound ↔ i.Passes t)
          ∧ (i.Passes t → ∃ b, k.expand b d = (e.descriptor, e.fault))
          ∧ (e.invocation.stage = .typeChecked ↔ ¬i.Judges t ∧ k.AppliesTo t)
          ∧ (e.invocation.stage = .parsed ↔ ¬i.Judges t ∧ ¬k.AppliesTo t)) := by
  intro i e
  have hkind : i.kind = k := (onward_afterAll (new k p) earlier).kind
  have hending : Ending i t d e := ending_expand h t d
  rw [← hkind]
  clear_value e
  cases hending with
  | misplaced hjudges happlies hstage =>
    have hpasses : ¬i.Passes t := fun h => hjudges h.judges
    simp [hstage, hjudges, happlies, hpasses]
  | interrupted hjudges happlies hstage =>
    have hpasses : ¬i.Passes t := fun h => hjudges h.judges
    simp [hstage, hjudges, happlies, hpasses]
  | rejected hjudges hpasses hstage => simp [hstage, hjudges, hpasses]
  | @begun j _ slots d' f? hpasses _ hstage hchange =>
    cases f? with
    | none => simp [hstage]
    | some f =>
      have hmade : ∃ b, i.kind.expand b d = (d', some f) := ⟨_, hchange⟩
      simp [hstage, hpasses, hpasses.judges, hmade]

/-- A kind whose check looks at the last value, and cannot look at it where there is none. -/
def lastKind : Kind where
  name   := "LastAnnotation"
  serial := 0
  mask   := some ⟨ElementKind.ofClass.bit⟩
  usage  := "!Last value"
  fields := .empty
  checks := [.rule (.acceptedIndexedValues (-1) [.text "end"] none)]
  expand := Kind.recordBinding .empty

/-- A look that fails on a method leaves the first state, and another one on a class the second, as
a conversion does that breaks down.  A list of names passes the checks and is refused by the change,
which leaves the third. -/
theorem expand_ends_unfailed :
    let d : Descriptor := { className := "User" }
    let looked := (new lastKind .empty).afterAll [.expand (limitTarget .ofMethod) d]
    let broken := new breakingKind ⟨[], .ofList [("level", .text "high")]⟩
    let listed := new Kind.table ⟨[.list [.text "users"]], .empty⟩
    looked.stage = .parsed ∧ looked.errors = ["LastAnnotation is only valid on Classes."]
      ∧ (looked.expand (limitTarget .ofClass) d).invocation.stage = .typeChecked
      ∧ ¬looked.Judges (limitTarget .ofClass)
      ∧ (broken.expand (limitTarget .ofClass) d).invocation.stage = .typeChecked
      ∧ ¬broken.Judges (limitTarget .ofClass)
      ∧ (listed.expand (limitTarget .ofClass) d).invocation.stage = .bound
      ∧ listed.Passes (limitTarget .ofClass) := by
  intro d looked broken listed
  have hlooked := (expand_ends lastKind .empty [.expand (limitTarget .ofMethod) d] rfl
    (limitTarget .ofClass) d).2 nofun
  have hbroken := (expand_ends breakingKind ⟨[], .ofList [("level", .text "high")]⟩ [] rfl
    (limitTarget .ofClass) d).2 nofun
  have hlisted := (expand_ends Kind.table ⟨[.list [.text "users"]], .empty⟩ [] rfl
    (limitTarget .ofClass) d).2 nofun
  exact ⟨rfl, rfl, rfl, (hlooked.2.2.2.1.1 rfl).1, rfl, (hbroken.2.2.2.1.1 rfl).1, rfl,
    hlisted.2.1.1 rfl⟩

/-- With the values of a text, the kinds that are always there come to a verdict. -/
theorem judges_builtins {k : Kind} (hk : k ∈ Kind.builtins) (hp : p.Flat) (t : Target) :
    (new k p).Judges t := by
  have hshown := Kind.shown_builtins hk
  refine ⟨Kind.exists_mask hk, ?_, p, parameters_new hshown, Kind.steady_builtins hk _⟩
  rw [subject_new hshown]
  exact Kind.quiet_builtins hk hp t

/-- **A kind that is always there fails whole.**  With the values of a text, an expansion that ends
in a fault leaves a new invocation failed, unless a kind that takes a single name is given a list:
that fault is one of the kind's own change. -/
theorem builtin_ends {k : Kind} (hk : k ∈ Kind.builtins) (hp : p.Flat)
    (h : ((new k p).expand t d).fault ≠ none) :
    ((new k p).expand t d).invocation.stage = .failed
      ∨ ((new k p).expand t d).invocation.stage = .bound
        ∧ k ∈ Kind.takesName ∧ Kind.GivesList p := by
  have hjudges := judges_builtins hk hp t
  have hending := ending_expand (i := new k p) rfl t d
  generalize (new k p).expand t d = e at h hending
  cases hending with
  | misplaced hnot _ _ => exact absurd hjudges hnot
  | interrupted hnot _ _ => exact absurd hjudges hnot
  | rejected _ _ hstage => exact .inl hstage
  | @begun j q slots d' f? hpasses hq hstage hchange =>
    cases f? with
    | none => exact absurd rfl h
    | some f =>
      have hshown := Kind.shown_builtins hk
      obtain rfl := eq_of_parameters_new hq
      refine .inr ⟨hstage, ?_⟩
      by_contra hlist
      have hnone := Kind.succeeds_builtins hk hp
        (subject_new (t := t) hshown ▸ hpasses.silent) hlist slots d
      have hsome := congrArg Prod.snd hchange
      cases hnone.symm.trans hsome

end Invocation

end DocDirective
