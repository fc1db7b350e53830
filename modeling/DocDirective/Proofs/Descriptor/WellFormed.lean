import DocDirective.Proofs.Kind.Proper
import DocDirective.Proofs.Processor.Description
import DocDirective.Proofs.Route.Path

/-!
# Proofs — Descriptor — WellFormed

Descriptors stay well-formed.  A directive of the kinds that are always there leaves a descriptor as
it is, or the descriptor takes over one proper contribution (`accept_or_eq`); either way it stays
well-formed, and so it does over any sequence of directives, whichever of them fail
(`wellFormed_afterAll`).
-/

namespace DocDirective

namespace Descriptor

/-- What holds of the metadata of a class at any time. -/
structure WellFormed (d : Descriptor) : Prop where
  routes       : ∀ r ∈ d.routes, r.method ∈ Kind.httpMethods ∧ Route.Canonical r.path
  routesPrefix : d.routesPrefix = "" ∨ Route.Canonical d.routesPrefix
  columns      : ∀ c ∈ d.columns, c.type ∈ Kind.columnTypes
  relations    : ∀ r ∈ d.relations, r.Proper
  primaryKey   : d.primaryKey = (d.columns.filter (·.primaryKey)).getLast?.map (·.name)

theorem wellFormed_fresh (className : String) :
    WellFormed { className := className } where
  routes _ hr := nomatch hr
  routesPrefix := .inl rfl
  columns _ hc := nomatch hc
  relations _ hr := nomatch hr
  primaryKey := rfl

variable {d : Descriptor}

/-- A well-formed descriptor takes over what is proper. -/
theorem WellFormed.accept (h : d.WellFormed) {c : Contribution} (hc : c.Proper) :
    (c.accept d).WellFormed := by
  cases c with
  | routesPrefix path => exact { h with routesPrefix := .inr (Route.canonical_normalize path) }
  | table name => exact { h with }
  | source name => exact { h with }
  | route r =>
    refine { h with routes := List.forall_mem_append.2 ⟨h.routes, ?_⟩ }
    rw [List.forall_mem_singleton]
    exact ⟨hc, Route.canonical_join d.routesPrefix r.path⟩
  | column c =>
    refine { h with
      columns := List.forall_mem_append.2 ⟨h.columns, List.forall_mem_singleton.2 hc⟩
      primaryKey := ?_ }
    refine Eq.trans ?_ (primaryKey_concat d.columns c).symm
    rw [← h.primaryKey]
    rfl
  | relation r =>
    exact { h with
      relations := List.forall_mem_append.2 ⟨h.relations, List.forall_mem_singleton.2 hc⟩ }

/-! ### One directive -/

/-- A directive leaves the descriptor as it is, or the descriptor takes over something proper. -/
theorem accept_or_eq {k : Kind} {name : String} (h : Registry.default.lookup name = .ok k)
    (ps : Parameters) (t : Target) (d : Descriptor) :
    ((Invocation.new k ps).expand t d).descriptor = d
      ∨ ∃ c : Contribution, c.Proper
        ∧ ((Invocation.new k ps).expand t d).descriptor = c.accept d := by
  obtain ⟨hk, hname⟩ := Registry.lookup_default h
  refine (Kind.expand_cases hk ps t d).imp_right fun ⟨hsilent, hdeclared, hexpands⟩ => ?_
  obtain ⟨c, hsaid, hsayer, htaken⟩ :=
    Kind.takesOver_builtins hk hname hdeclared hsilent hexpands
  exact ⟨c, Kind.proper_builtins hk hname hdeclared hsilent hsaid hsayer, htaken⟩

theorem WellFormed.expand (hd : d.WellFormed) {k : Kind} {name : String}
    (h : Registry.default.lookup name = .ok k) (ps : Parameters) (t : Target) :
    ((Invocation.new k ps).expand t d).descriptor.WellFormed := by
  obtain heq | ⟨c, hc, heq⟩ := accept_or_eq h ps t d
  · rw [heq]
    exact hd
  · rw [heq]
    exact hd.accept hc

/-! ### Many directives -/

/-- Something done to a descriptor: a directive of some name is expanded with parameters on an
element, or a pass is made over written directives. -/
inductive Step
  | directive (name : String) (ps : Parameters) (t : Target)
  | pass      (ds : List (Target × Directive))

/-- The descriptor that a step leaves, whether or not it ends in a fault. -/
def after (d : Descriptor) : Step → Descriptor
  | .directive name ps t =>
    match Registry.default.lookup name with
    | .ok k    => ((Invocation.new k ps).expand t d).descriptor
    | .error _ => d
  | .pass ds => (({} : Processor).run ds d).descriptor

/-- The descriptor after steps, one after another. -/
def afterAll (d : Descriptor) (steps : List Step) : Descriptor := steps.foldl after d

theorem WellFormed.attempt (hd : d.WellFormed) (t : Target) (dir : Directive) :
    (({} : Processor).attempt t dir d).2.WellFormed := by
  unfold Processor.attempt
  split
  · exact hd
  · rename_i i hi
    obtain ⟨k, ps, rfl, -, hlookup⟩ := Processor.instantiate_eq_ok rfl hi
    exact hd.expand hlookup ps t

theorem WellFormed.chain {ds : List (Target × Directive)} {as : List Attempt} {d' : Descriptor}
    (h : Processor.Chain {} ds d as d') (hd : d.WellFormed) : d'.WellFormed := by
  induction h with
  | nil => exact hd
  | @cons t dir ds d d₁ d' a as hstep _ ih =>
    have hd₁ := hd.attempt t dir
    rw [hstep] at hd₁
    exact ih hd₁

theorem WellFormed.after (hd : d.WellFormed) (s : Step) : (d.after s).WellFormed := by
  cases s with
  | directive name ps t =>
    rw [Descriptor.after]
    split
    · rename_i hlookup
      exact hd.expand hlookup ps t
    · exact hd
  | pass ds => exact hd.chain (Processor.chain_attempts ds d).2

/-- **Every descriptor that directives lead to is well-formed**, whatever their parameters and
elements are, and however they fail: its routes have methods and canonical paths, its columns have
types, its relations are proper, and its primary key is the last column that is one. -/
theorem wellFormed_afterAll (className : String) (steps : List Step) :
    (({ className := className } : Descriptor).afterAll steps).WellFormed := by
  have hrun (d : Descriptor) (hd : d.WellFormed) : (d.afterAll steps).WellFormed := by
    induction steps generalizing d with
    | nil => exact hd
    | cons s steps ih => exact ih _ (hd.after s)
  exact hrun _ (wellFormed_fresh className)

end Descriptor

end DocDirective
