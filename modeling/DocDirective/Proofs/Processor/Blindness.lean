import DocDirective.Proofs.Processor.Batching

/-!
# Proofs — Processor — Blindness

What comes of a directive does not depend on the descriptor where the kinds that are always there
are registered (`blind_default`): their checks do not see it, and whether their changes go through
is settled by what is bound.  So the attempts of a pass are those at its directives one by one, and
the descriptor in the end is what the directives make of it, folded one after another
(`run_of_blind`).
-/

namespace DocDirective

/-! ### Changes and expansions -/

namespace Kind

variable {k : Kind}

/-- Whether a change goes through does not depend on what it changes. -/
theorem fault_expand_builtins (hk : k ∈ builtins) (b : Binding) (d d' : Descriptor) :
    (k.expand b d).2 = (k.expand b d').2 := by
  have htext (change : String → Descriptor → Descriptor) :
      (expandText change b d).2 = (expandText change b d').2 := by
    unfold expandText
    split
    · rfl
    · split <;> rfl
  simp only [builtins, List.mem_cons, List.not_mem_nil, or_false] at hk
  rcases hk with rfl | rfl | rfl | rfl | rfl | rfl | rfl
  · simp only [route, expandRoute]
    split <;> rfl
  · exact htext _
  · exact htext _
  · exact htext _
  · simp only [column, expandColumn]
    split <;> rfl
  · exact htext _
  · exact htext _

end Kind

namespace Invocation

/-- An expansion takes the same course on any descriptor if the kind's change does. -/
theorem expand_congr {i : Invocation}
    (h : ∀ b d d', (i.kind.expand b d).2 = (i.kind.expand b d').2) (t : Target)
    (d d' : Descriptor) :
    (i.expand t d).invocation = (i.expand t d').invocation
      ∧ (i.expand t d).fault = (i.expand t d').fault := by
  have hbind {j : Invocation} (hj : j.kind = i.kind) (ps : Parameters) (b : Keyed Value) :
      (bindAndExpand j ps t b d).invocation = (bindAndExpand j ps t b d').invocation
        ∧ (bindAndExpand j ps t b d).fault = (bindAndExpand j ps t b d').fault := by
    have hfault := h ⟨i.kind.name, ps.positional, j.slots.insertAll b.entries, t⟩ d d'
    simp only [bindAndExpand, hj]
    generalize i.kind.expand _ d = r at hfault ⊢
    generalize i.kind.expand _ d' = r' at hfault ⊢
    obtain ⟨e, f?⟩ := r
    obtain ⟨e', f'?⟩ := r'
    obtain rfl : f? = f'? := hfault
    cases f? <;> exact ⟨rfl, rfl⟩
  unfold expand
  split
  · split
    · unfold checkAndExpand
      dsimp only
      split
      · exact ⟨rfl, rfl⟩
      · split
        · exact ⟨rfl, rfl⟩
        · split
          · exact ⟨rfl, rfl⟩
          · refine hbind ?_ _ _
            split <;> rfl
          · exact ⟨rfl, rfl⟩
    · exact ⟨rfl, rfl⟩
  · exact ⟨rfl, rfl⟩

end Invocation

namespace Processor

variable {p : Processor} {ds : List (Target × Directive)} {d : Descriptor}

/-- What comes of a directive does not depend on the descriptor. -/
def Blind (p : Processor) : Prop :=
  ∀ t dir d d', (p.attempt t dir d).1 = (p.attempt t dir d').1

theorem blind_default (hp : p.registry = .default) : p.Blind := by
  intro t dir d d'
  unfold attempt
  cases hi : p.instantiate dir with
  | error f => rfl
  | ok i =>
    obtain ⟨k, ps, rfl, -, hlookup⟩ := instantiate_eq_ok hp hi
    have hk := (Registry.lookup_default hlookup).1
    obtain ⟨hinvocation, hfault⟩ := Invocation.expand_congr (i := .new k ps)
      (Kind.fault_expand_builtins hk) t d d'
    dsimp only
    rw [hinvocation, hfault]

/-! ### Passes directive by directive -/

/-- The descriptor behind one more directive. -/
def next (p : Processor) (d : Descriptor) (x : Target × Directive) : Descriptor :=
  (p.attempt x.1 x.2 d).2

theorem Chain.eq_foldl {as : List Attempt} {d' : Descriptor} (h : Chain p ds d as d') :
    d' = ds.foldl p.next d := by
  induction h with
  | nil => rfl
  | cons h _ ih => rw [ih, List.foldl_cons, next, h]

/-- The attempts of a chain are those at its directives, each on any descriptor. -/
theorem Chain.eq_map (hp : p.Blind) {as : List Attempt} {d' : Descriptor}
    (h : Chain p ds d as d') (d₀ : Descriptor) :
    as = ds.map fun x => (p.attempt x.1 x.2 d₀).1 := by
  induction h with
  | nil => rfl
  | cons h _ ih =>
    rename_i t dir _ d _ _ _ _ _
    rw [List.map_cons, ← ih, ← hp t dir d d₀, h]

/-- A pass goes on to its end if every directive by itself lets it go on. -/
theorem run_of_blind (hp : p.Blind) (h : ∀ x ∈ ds, (p.attempt x.1 x.2 d).1.abort? = none) :
    p.run ds d = ⟨ds.map fun x => (p.attempt x.1 x.2 d).1, ds.foldl p.next d⟩ := by
  obtain ⟨as, d', hchain⟩ := exists_chain p ds d
  obtain rfl := hchain.eq_map hp d
  obtain rfl := hchain.eq_foldl
  exact hchain.run_eq (List.forall_mem_map.2 h)

theorem abort?_of_run (hp : p.Blind) (h : (p.run ds d).abort? = none) :
    ∀ x ∈ ds, (p.attempt x.1 x.2 d).1.abort? = none := by
  have hall : ∀ a ∈ (p.run ds d).attempts, a.abort? = none := fun a ha => abort?_of_pass h ha
  rw [(chain_run h).eq_map hp d] at hall
  exact List.forall_mem_map.1 hall

end Processor

end DocDirective
