import DocDirective.Proofs.Kind.Contribution
import DocDirective.Proofs.Processor.Attempt

/-!
# Proofs — Processor — Description

The descriptor as a function of the directives that were carried out.  Each of them says one thing
about its class; what they say, in order, determines every field (`describe`).  A pass takes their
contributions one after another, and whatever fails in between adds nothing, whether or not a fault
ends the pass early (`expandClass_describes`).
-/

namespace DocDirective

/-! ### The description of a class -/

/-- The path that routes start with behind some contributions. -/
def prefixOf (cs : List Contribution) : String :=
  ((cs.filterMap (·.routesPrefix?)).getLast?.map Route.normalize).getD ""

/-- The route that a contribution is, if it is one, below the path that is in force where it
stands. -/
def routeAt? (cs : List Contribution) (i : Nat) : Option RouteEntry :=
  (cs[i]?.bind (·.route?)).map fun r => { r with path := Route.join (prefixOf (cs.take i)) r.path }

/-- The metadata of a class by all that is said about it. -/
def describe (className : String) (cs : List Contribution) : Descriptor where
  className    := className
  routesPrefix := prefixOf cs
  table        := (cs.filterMap (·.table?)).getLast?
  source       := (cs.filterMap (·.source?)).getLast?
  primaryKey   := ((cs.filterMap (·.column?)).filter (·.primaryKey)).getLast?.map (·.name)
  routes       := (List.range cs.length).filterMap (routeAt? cs)
  columns      := cs.filterMap (·.column?)
  relations    := cs.filterMap (·.relation?)
  attributes   := .empty

theorem describe_nil (className : String) : describe className [] = { className := className } :=
  rfl

theorem routeAt?_append {cs : List Contribution} {i : Nat} (hi : i < cs.length)
    (c : Contribution) : routeAt? (cs ++ [c]) i = routeAt? cs i := by
  rw [routeAt?, routeAt?, List.getElem?_append_left hi, List.take_append_of_le_length hi.le]

theorem routeAt?_length (cs : List Contribution) (c : Contribution) :
    routeAt? (cs ++ [c]) cs.length
      = c.route?.map fun r => { r with path := Route.join (prefixOf cs) r.path } := by
  rw [routeAt?, List.getElem?_concat_length, List.take_left, Option.bind_some]

/-- The routes behind one more contribution. -/
theorem routes_concat (cs : List Contribution) (c : Contribution) :
    (List.range (cs ++ [c]).length).filterMap (routeAt? (cs ++ [c]))
      = (List.range cs.length).filterMap (routeAt? cs) ++ (c.route?.map fun r =>
        { r with path := Route.join (prefixOf cs) r.path }).toList := by
  have hinit : (List.range cs.length).filterMap (routeAt? (cs ++ [c]))
      = (List.range cs.length).filterMap (routeAt? cs) :=
    List.filterMap_congr fun i hi => routeAt?_append (List.mem_range.1 hi) c
  rw [List.length_append, List.length_singleton, List.range_succ, List.filterMap_append, hinit]
  congr 1
  rw [List.filterMap_cons, routeAt?_length]
  cases c.route? <;> rfl

theorem filterMap_concat {α β : Type} (f : α → Option β) (xs : List α) (x : α) :
    (xs ++ [x]).filterMap f = xs.filterMap f ++ (f x).toList := by
  rw [List.filterMap_append, List.filterMap_cons]
  cases f x <;> rfl

theorem prefixOf_concat (cs : List Contribution) (c : Contribution) :
    prefixOf (cs ++ [c]) = (c.routesPrefix?.map Route.normalize).getD (prefixOf cs) := by
  rw [prefixOf, filterMap_concat, List.getLast?_append, prefixOf]
  cases c.routesPrefix? <;> rfl

/-- The last primary key behind one more column. -/
theorem primaryKey_concat (xs : List Column) (c : Column) :
    ((xs ++ [c]).filter (·.primaryKey)).getLast?.map (·.name)
      = if c.primaryKey then some c.name
        else ((xs.filter (·.primaryKey)).getLast?).map (·.name) := by
  rw [List.filter_append]
  cases hc : c.primaryKey with
  | true =>
    rw [List.filter_cons_of_pos hc, List.filter_nil, List.getLast?_concat]
    rfl
  | false =>
    rw [List.filter_cons_of_neg (ne_true_of_eq_false hc), List.filter_nil, List.append_nil]
    rfl

/-- The description takes one more contribution as a descriptor does. -/
theorem describe_concat (className : String) (cs : List Contribution) (c : Contribution) :
    describe className (cs ++ [c]) = c.accept (describe className cs) := by
  simp only [describe, routes_concat, prefixOf_concat, filterMap_concat]
  cases c with
  | column c =>
    simp only [Contribution.routesPrefix?, Contribution.table?, Contribution.source?,
      Contribution.route?, Contribution.column?, Contribution.relation?, Option.map_none,
      Option.getD_none, Option.toList_none, Option.toList_some, List.append_nil, primaryKey_concat]
    rfl
  | _ =>
    simp only [Contribution.routesPrefix?, Contribution.table?, Contribution.source?,
      Contribution.route?, Contribution.column?, Contribution.relation?, Option.map_none,
      Option.map_some, Option.getD_none, Option.toList_none, Option.toList_some, List.append_nil,
      List.getLast?_concat]
    rfl

/-! ### What a pass takes over -/

/-- What the directive of an attempt says. -/
def Attempt.said? (a : Attempt) : Option Contribution :=
  match Arguments.evaluate a.directive.arguments with
  | .ok ps   => Contribution.of? a.target a.directive.name ps
  | .error _ => none

namespace Processor

variable {p : Processor} {t : Target} {dir : Directive} {d d' : Descriptor}

/-- A directive that is carried out says one thing, and the descriptor takes it over. -/
theorem accept_attempt (hp : p.registry = .default) {a : Attempt}
    (h : p.attempt t dir d = (a, d')) (ha : a.succeeded = true) :
    ∃ c, a.said? = some c ∧ a.directive.name ∈ c.sayers ∧ d' = c.accept d := by
  rw [attempt] at h
  cases hi : p.instantiate dir with
  | error f =>
    rw [hi] at h
    cases h
    cases ha
  | ok i =>
    obtain ⟨k, ps, rfl, heval, hlookup⟩ := instantiate_eq_ok hp hi
    obtain ⟨hk, hname⟩ := Registry.lookup_default hlookup
    obtain ⟨mask, hmask⟩ := Kind.exists_mask hk
    rw [hi] at h
    cases h
    have hfault : ((Invocation.new k ps).expand t d).fault = none := by
      simpa [Attempt.succeeded] using ha
    obtain ⟨-, hsilent, hdeclared, -⟩ := (Kind.fault_eq_none_iff hk hmask).1 hfault
    obtain ⟨c, hsays, hsayer, htaken⟩ := Kind.takesOver_builtins hk hname hdeclared hsilent
      (Kind.expands_of_fault_eq_none hk hmask hfault)
    refine ⟨c, ?_, hsayer, htaken⟩
    rw [Attempt.said?, heval]
    exact hsays

/-- The descriptor at the end of a chain is described by what the directives say that are carried
out. -/
theorem Chain.describes (hp : p.registry = .default) {ds : List (Target × Directive)}
    {as : List Attempt} {className : String} {cs : List Contribution}
    (h : Chain p ds d as d') (hd : d = describe className cs) :
    d' = describe className (cs ++ (as.filter (·.succeeded)).filterMap (·.said?)) := by
  induction h generalizing cs with
  | nil => simpa using hd
  | @cons t dir ds d d₁ d' a as hstep _ ih =>
    cases ha : a.succeeded with
    | true =>
      obtain ⟨c, hsaid, -, htaken⟩ := accept_attempt hp hstep ha
      have hd₁ : d₁ = describe className (cs ++ [c]) := by
        rw [describe_concat, ← hd]
        exact htaken
      rw [List.filter_cons_of_pos ha, List.filterMap_cons_some hsaid, ih hd₁, List.append_assoc,
        List.singleton_append]
    | false =>
      -- the attempt failed and adds nothing
      have hfault : (p.attempt t dir d).1.fault ≠ none := by
        rw [hstep]
        intro hnone
        rw [Attempt.succeeded, hnone] at ha
        cases ha
      have hd₁ : d₁ = d := by
        have hspared := spares_default hp t dir d hfault
        rwa [hstep] at hspared
      rw [List.filter_cons_of_neg (ne_true_of_eq_false ha)]
      exact ih (hd₁.trans hd)

theorem Chain.said (hp : p.registry = .default) {ds : List (Target × Directive)}
    {as : List Attempt} (h : Chain p ds d as d') {a : Attempt} (ha : a ∈ as)
    (hs : a.succeeded = true) : ∃ c, a.said? = some c ∧ a.directive.name ∈ c.sayers := by
  induction h with
  | nil => cases ha
  | cons hstep _ ih =>
    rcases List.mem_cons.1 ha with rfl | ha
    · obtain ⟨c, hsaid, hsayer, -⟩ := accept_attempt hp hstep hs
      exact ⟨c, hsaid, hsayer⟩
    · exact ih ha

/-- **The descriptor is a function of the directives that were carried out.**  Into a fresh
descriptor, a pass over a class attempts directives from the front of the class, and all of them
unless a fault ends it early.  Each one that is carried out says one thing, of the sort that its
name tells, and what they say in order is the whole description of the class, whatever fails in
between and however the pass ends. -/
theorem expandClass_describes (s : ClassSource) (className : String) :
    let q := ({} : Processor).expandClass s { className := className }
    let done := q.attempts.filter (·.succeeded)
    q.attempts.map (·.about) <+: s.directives
      ∧ (q.abort? = none → q.attempts.map (·.about) = s.directives)
      ∧ (∀ a ∈ done, ∃ c, a.said? = some c ∧ a.directive.name ∈ c.sayers)
      ∧ q.descriptor = describe className (done.filterMap (·.said?)) := by
  intro q done
  have hp : ({} : Processor).registry = .default := rfl
  obtain ⟨hfront, hchain⟩ := chain_attempts (p := {}) s.directives { className := className }
  refine ⟨hfront, fun habort => (chain_run habort).map_about, fun a ha => ?_, ?_⟩
  · exact hchain.said hp (List.mem_of_mem_filter ha) (List.of_mem_filter ha)
  · exact hchain.describes hp (describe_nil className).symm

end Processor

end DocDirective
