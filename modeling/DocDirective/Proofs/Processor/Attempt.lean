import DocDirective.Proofs.Kind.Builtins
import DocDirective.Proofs.Processor.Pass

/-!
# Proofs — Processor — Attempt

What can come of one directive where the kinds that are always there are registered.  It is carried
out, or there is an error about it that has the place of the element and leaves the descriptor
alone.  Two things come of it otherwise: its arguments cannot be read for a reason that is no error
about them, or a class is given a list for a single name (`ListGiven`).
-/

namespace DocDirective

variable {k : Kind} {ps : Parameters} {t : Target} {d : Descriptor}

/-! ### Errors about one element -/

namespace AnnotationError

/-- The error has the place of the element, and is not several that are raised as one. -/
structure About (t : Target) (e : AnnotationError) : Prop where
  file   : e.file = t.file
  line   : e.line = t.line
  single : ∀ es, e.cause ≠ .several es

/-- The error has no place yet, and is not several that are raised as one. -/
structure Unplaced (e : AnnotationError) : Prop where
  file   : e.file = none
  line   : e.line = none
  single : ∀ es, e.cause ≠ .several es

variable {e : AnnotationError}

/-- An error without a place gets that of the element. -/
theorem Unplaced.located (h : e.Unplaced) (t : Target) : (e.located t.file t.line).About t where
  file   := by simp [AnnotationError.located, h.file]
  line   := by simp [AnnotationError.located, h.line]
  single := h.single

theorem About.located (h : e.About t) : (e.located t.file t.line).About t where
  file   := by simp [AnnotationError.located, h.file]
  line   := by simp [AnnotationError.located, h.line]
  single := h.single

theorem About.parts (h : e.About t) : e.parts = [e] := by
  unfold AnnotationError.parts
  split
  · rename_i es hcause
    exact absurd hcause (h.single es)
  all_goals rfl

end AnnotationError

/-! ### Expansions of the kinds that are always there -/

namespace Kind

/-- The kinds that take a single name apply to classes, check the number of values, and set the
text of the first. -/
theorem takesName_eq (hk : k ∈ takesName) : k ∈ builtins ∧ k.mask = some ⟨ElementKind.ofClass.bit⟩
    ∧ k.checks = [.rule .acceptsNoKeyedValues, .rule (.exactCount 1)]
    ∧ ∃ change, k.expand = expandText change := by
  simp only [takesName, List.mem_cons, List.not_mem_nil, or_false] at hk
  rcases hk with rfl | rfl | rfl <;> exact ⟨by simp [builtins], rfl, rfl, _, rfl⟩

end Kind

namespace Invocation

/-- An error of an expansion is about the element, and comes with the descriptor as it was. -/
theorem expand_builtins (hk : k ∈ Kind.builtins) (hp : ps.Flat)
    (hlist : ¬(t.kind = .ofClass ∧ k ∈ Kind.takesName ∧ Kind.GivesList ps)) :
    ((new k ps).expand t d).fault = none
      ∨ ∃ e, ((new k ps).expand t d).fault = some (.reported e) ∧ e.About t
        ∧ ((new k ps).expand t d).descriptor = d := by
  obtain ⟨mask, hmask⟩ := Kind.exists_mask hk
  have hq := Kind.quiet_builtins hk hp t
  have hsteady := Kind.steady_builtins hk ps.keyed.entries
  rw [expand_new hmask (Kind.shown_builtins hk) hq hsteady]
  cases hf : findings k mask ps t with
  | nil =>
    obtain ⟨hin, hsilent, -⟩ := (findings_eq_nil_iff hq hsteady).1 hf
    have hsucceeds : Kind.Succeeds k ps t := by
      refine Kind.succeeds_builtins hk hp hsilent fun ⟨htakes, hgives⟩ => ?_
      obtain ⟨-, hclass, -⟩ := Kind.takesName_eq htakes
      obtain rfl : mask = ⟨ElementKind.ofClass.bit⟩ := Option.some.inj (hmask.symm.trans hclass)
      exact hlist ⟨Mask.contains_bit_iff.1 hin, htakes, hgives⟩
    obtain ⟨-, -, -, hexpand⟩ := bindAndExpand_eq
      { new k ps with target := some t, stage := .typeChecked } ps t (bindings k ps) d
    exact .inl ((congrArg Prod.snd hexpand).trans (hsucceeds _ d))
  | cons e es =>
    refine .inr ⟨_, rfl, ⟨rfl, rfl, fun es => ?_⟩, rfl⟩
    cases hin : mask.contains t.kind <;> nofun

/-- A list for a single name passes the checks, and is turned down by the change. -/
theorem expand_list (hk : k ∈ Kind.takesName) (hclass : t.kind = .ofClass)
    (hgives : Kind.GivesList ps) :
    ((new k ps).expand t d).fault = some (.unfit .notSingle)
      ∧ ((new k ps).expand t d).descriptor = d := by
  obtain ⟨hbuiltin, hmask, hchecks, change, hchange⟩ := Kind.takesName_eq hk
  obtain ⟨xs, rfl⟩ := hgives
  have hsteady : Steady k.fields [] := List.forall_mem_nil _
  have hsilent : ∀ c ∈ k.checks,
      c.complaints ⟨k.name, some ⟨[.list xs], .empty⟩, some t⟩ = [] := by
    rw [hchecks, List.forall_mem_cons, List.forall_mem_singleton]
    exact ⟨rfl, rfl⟩
  have hq : ∀ c ∈ k.checks,
      Quiet (c.complaints ⟨k.name, some ⟨[.list xs], .empty⟩, some t⟩) := by
    intro c hc
    rw [hsilent c hc]
    simp [Quiet]
  have hnone : findings k ⟨ElementKind.ofClass.bit⟩ ⟨[.list xs], .empty⟩ t = [] :=
    (findings_eq_nil_iff hq hsteady).2
      ⟨Mask.contains_bit_iff.2 hclass, hsilent, List.forall_mem_nil _⟩
  rw [expand_new hmask (Kind.shown_builtins hbuiltin) hq hsteady, hnone]
  obtain ⟨-, -, -, hexpand⟩ := bindAndExpand_eq
    { new k ⟨[.list xs], .empty⟩ with target := some t, stage := .typeChecked }
    ⟨[.list xs], .empty⟩ t (bindings k ⟨[.list xs], .empty⟩) d
  simp only [new, hchange, Kind.expandText, Value.asText] at hexpand
  exact ⟨congrArg Prod.snd hexpand, congrArg Prod.fst hexpand⟩

end Invocation

/-! ### The registry of the kinds that are always there -/

namespace Registry

theorem entries_default : default.kinds.entries = Kind.builtins.map fun k => (k.name, k) :=
  Keyed.entries_insertAll (t := .empty) (by decide)

theorem lookup_default {name : String} (h : default.lookup name = .ok k) :
    k ∈ Kind.builtins ∧ k.name = name ++ Kind.suffix := by
  unfold lookup at h
  split at h
  · rename_i k' hk
    cases h
    have hmem := Keyed.get?_eq_some_iff.1 hk
    rw [entries_default] at hmem
    obtain ⟨k', hk', he⟩ := List.mem_map.1 hmem
    obtain ⟨hname, rfl⟩ := Prod.mk.inj he
    exact ⟨hk', hname⟩
  · cases h

end Registry

/-- The directives that take a single name. -/
def namers : List String := ["RoutesPrefix", "Table", "Source"]

/-- The kinds that take a single name are those of the directives that do. -/
theorem mem_takesName_iff {name : String} (h : Registry.default.lookup name = .ok k) :
    k ∈ Kind.takesName ↔ name ∈ namers := by
  obtain ⟨-, hname⟩ := Registry.lookup_default h
  constructor
  · intro hk
    have hcut {s : String} (hs : k.name = s ++ Kind.suffix) : name = s := by
      rw [hname] at hs
      exact (String.append_left_inj Kind.suffix).1 hs
    simp only [Kind.takesName, List.mem_cons, List.not_mem_nil, or_false] at hk
    rcases hk with rfl | rfl | rfl
    · rw [hcut (s := "RoutesPrefix") rfl]
      decide
    · rw [hcut (s := "Table") rfl]
      decide
    · rw [hcut (s := "Source") rfl]
      decide
  · intro hn
    simp only [namers, List.mem_cons, List.not_mem_nil, or_false] at hn
    rcases hn with rfl | rfl | rfl <;> cases h <;> simp [Kind.takesName]

/-! ### What can come of a directive -/

/-- A class is given a list for a single name, as by `!Table (users, books)`. -/
def ListGiven (t : Target) (dir : Directive) : Prop :=
  t.kind = .ofClass ∧ dir.name ∈ namers
    ∧ ∃ ps, Arguments.evaluate dir.arguments = .ok ps ∧ Kind.GivesList ps

/-- The arguments can be read, or there is an error about them. -/
def Readable (dir : Directive) : Prop :=
  (∃ ps, Arguments.evaluate dir.arguments = .ok ps)
    ∨ ∃ problem, Arguments.evaluate dir.arguments = .error (.problem problem)

/-- What can come of a directive: the fault, and the descriptor in the end. -/
inductive Outcome (t : Target) (dir : Directive) (d : Descriptor) : Option Fault → Descriptor → Prop
  | done (d' : Descriptor) : Outcome t dir d none d'
  | reported {e : AnnotationError} (h : e.About t) : Outcome t dir d (some (.reported e)) d
  | turnedDown (h : ListGiven t dir) : Outcome t dir d (some (.unfit .notSingle)) d
  | unread {f : Fault} (h : ¬Readable dir) (hf : ∀ e, f ≠ .reported e) : Outcome t dir d (some f) d

namespace Processor

theorem read_eq_ok {name? : Option String} {text : String} :
    Arguments.read name? text = .ok ps ↔ Arguments.evaluate text = .ok ps := by
  unfold Arguments.read
  split <;> simp_all

/-- Arguments that cannot be read have an error about them without a place, or a fault that is no
error about them wherever they stand. -/
theorem read_eq_error {dir : Directive} {f : Fault}
    (h : Arguments.read (some dir.name) dir.arguments = .error f) :
    (∃ e, f = .reported e ∧ e.Unplaced)
      ∨ ¬Readable dir ∧ ∀ t e, locate t f ≠ .reported e := by
  have hunread {failure : Arguments.Failure}
      (heval : Arguments.evaluate dir.arguments = .error failure)
      (hproblem : ∀ problem, failure ≠ .problem problem) : ¬Readable dir := by
    rintro (⟨ps, h⟩ | ⟨problem, h⟩)
    · cases heval.symm.trans h
    · exact hproblem problem (Except.error.inj (heval.symm.trans h))
  unfold Arguments.read at h
  split at h
  · cases h
  · cases h
    exact .inl ⟨_, rfl, rfl, rfl, nofun⟩
  · rename_i heval
    cases h
    exact .inr ⟨hunread heval nofun, nofun⟩
  · rename_i heval
    cases h
    exact .inr ⟨hunread heval nofun, nofun⟩

theorem lookup_eq_error {r : Registry} {name : String} {e : AnnotationError}
    (h : r.lookup name = .error e) : e.Unplaced := by
  unfold Registry.lookup at h
  split at h
  · cases h
  · cases h
    exact ⟨rfl, rfl, nofun⟩

/-- What stands between a directive and its invocation. -/
theorem outcome_instantiate {p : Processor} {dir : Directive} {f : Fault}
    (h : p.instantiate dir = .error f) : Outcome t dir d (some (locate t f)) d := by
  unfold instantiate at h
  split at h
  · rename_i f' hread
    cases h
    obtain ⟨e, rfl, he⟩ | ⟨hunread, hf⟩ := read_eq_error hread
    · exact .reported (he.located t)
    · exact .unread hunread (hf t)
  · split at h
    · rename_i e he
      cases h
      exact .reported ((lookup_eq_error he).located t)
    · cases h

/-- An invocation comes from arguments that can be read and a kind that is always there. -/
theorem instantiate_eq_ok {p : Processor} (hp : p.registry = .default) {dir : Directive}
    {i : Invocation} (h : p.instantiate dir = .ok i) :
    ∃ k ps, i = .new k ps ∧ Arguments.evaluate dir.arguments = .ok ps
      ∧ Registry.default.lookup dir.name = .ok k := by
  rw [instantiate, hp] at h
  split at h
  · cases h
  · rename_i ps hread
    split at h
    · cases h
    · rename_i k hk
      cases h
      exact ⟨k, ps, rfl, read_eq_ok.1 hread, hk⟩

/-- **What can come of a directive where the kinds that are always there are registered.** -/
theorem outcome_attempt {p : Processor} (hp : p.registry = .default) (t : Target)
    (dir : Directive) (d : Descriptor) :
    Outcome t dir d (p.attempt t dir d).1.fault (p.attempt t dir d).2 := by
  unfold attempt
  cases hi : p.instantiate dir with
  | error f => exact outcome_instantiate hi
  | ok i =>
    obtain ⟨k, ps, rfl, heval, hlookup⟩ := instantiate_eq_ok hp hi
    have hk := (Registry.lookup_default hlookup).1
    dsimp only
    by_cases hlist : t.kind = .ofClass ∧ k ∈ Kind.takesName ∧ Kind.GivesList ps
    · -- a list for a class; for any other element it is an error, as the kind does not apply
      obtain ⟨hclass, htakes, hgives⟩ := hlist
      obtain ⟨hfault, hd⟩ := Invocation.expand_list (d := d) htakes hclass hgives
      rw [hfault, hd]
      exact .turnedDown ⟨hclass, (mem_takesName_iff hlookup).1 htakes, ps, heval, hgives⟩
    · obtain hfault | ⟨e, hfault, he, hd⟩ :=
        Invocation.expand_builtins (d := d) hk (Arguments.evaluate_flat heval) hlist
      · rw [hfault]
        exact .done _
      · rw [hfault, hd]
        exact .reported he.located

/-- A list for a single name is turned down. -/
theorem fault_attempt_of_listGiven {p : Processor} (hp : p.registry = .default) {dir : Directive}
    (h : ListGiven t dir) : (p.attempt t dir d).1.fault = some (.unfit .notSingle) := by
  obtain ⟨hclass, hname, ps, heval, hgives⟩ := h
  have hlookup : ∃ k, Registry.default.lookup dir.name = .ok k := by
    simp only [namers, List.mem_cons, List.not_mem_nil, or_false] at hname
    rcases hname with h | h | h <;> rw [h] <;> exact ⟨_, rfl⟩
  obtain ⟨k, hk⟩ := hlookup
  have hi : p.instantiate dir = .ok (.new k ps) := by
    simp only [instantiate, read_eq_ok.2 heval, hp, hk]
  have hexpand := (Invocation.expand_list (d := d) ((mem_takesName_iff hk).2 hname) hclass
    hgives).1
  simp only [attempt, hi, hexpand]
  rfl

/-- Failing directives leave the descriptor as it is. -/
theorem spares_default {p : Processor} (hp : p.registry = .default) : p.Spares := by
  intro t dir d hfault
  have h := outcome_attempt hp t dir d
  revert h hfault
  generalize (p.attempt t dir d).1.fault = f?
  generalize (p.attempt t dir d).2 = d'
  intro hfault h
  cases h with
  | done => exact absurd rfl hfault
  | reported => rfl
  | turnedDown => rfl
  | unread => rfl

end Processor

end DocDirective
