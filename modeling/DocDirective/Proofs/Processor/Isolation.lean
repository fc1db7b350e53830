import DocDirective.Proofs.Processor.Batching

/-!
# Proofs — Processor — Isolation

How far a failing directive leaves its siblings alone, where the kinds that are always there are
registered.  All directives of a class are attempted, and only errors about them are raised, exactly
if no class is given a list for a single name and the places of all errors of a batch can be
written.  The first such list ends the pass where it stands.
-/

namespace DocDirective

/-- Errors about directives: one of them, or a batch. -/
def Fault.Reports : Fault → Prop
  | .reported _          => True
  | .batch _             => True
  | .outOfRange          => False
  | .overlong _          => False
  | .unfit _             => False
  | .alreadyBound _      => False
  | .alreadyExpanded _ _ => False
  | .noTargets _         => False
  | .other _             => False

/-- The directive can be read and does not give a list for a single name. -/
def Harmless (x : Target × Directive) : Prop := Readable x.2 ∧ ¬ListGiven x.1 x.2

namespace Processor

variable {p : Processor} {s : ClassSource} {d : Descriptor}

theorem abort?_attempt (hp : p.registry = .default) {t : Target} {dir : Directive}
    (h : Harmless (t, dir)) (d : Descriptor) : (p.attempt t dir d).1.abort? = none := by
  have hout := outcome_attempt hp t dir d
  unfold Attempt.abort?
  generalize (p.attempt t dir d).1.fault = f? at hout ⊢
  generalize (p.attempt t dir d).2 = d' at hout
  cases hout with
  | done => rfl
  | reported => rfl
  | turnedDown hlist => exact absurd hlist h.2
  | unread hread => exact absurd h.1 hread

/-- A chain of harmless directives is not ended early. -/
theorem Chain.goesOn (hp : p.registry = .default) {ds : List (Target × Directive)}
    {d d' : Descriptor} {as : List Attempt} (h : Chain p ds d as d')
    (hds : ∀ x ∈ ds, Harmless x) : ∀ a ∈ as, a.abort? = none := by
  induction h with
  | nil => simp
  | cons h _ ih =>
    rename_i t dir _ d _ _ _ _ _
    rw [List.forall_mem_cons] at hds ⊢
    have hstep := abort?_attempt hp hds.1 d
    rw [h] at hstep
    exact ⟨hstep, ih hds.2⟩

/-- A pass over harmless directives attempts all of them. -/
theorem run_of_harmless (hp : p.registry = .default) {ds : List (Target × Directive)}
    (hds : ∀ x ∈ ds, Harmless x) (d : Descriptor) :
    (p.run ds d).abort? = none ∧ (p.run ds d).attempts.map (·.about) = ds := by
  obtain ⟨as, d', h⟩ := exists_chain p ds d
  have ha := h.goesOn hp hds
  rw [h.run_eq ha]
  exact ⟨List.findSome?_eq_none_iff.2 ha, h.map_about⟩

/-- The first list for a single name ends a pass. -/
theorem run_of_listGiven (hp : p.registry = .default) {before after : List (Target × Directive)}
    {x : Target × Directive} (hbefore : ∀ y ∈ before, Harmless y) (hx : ListGiven x.1 x.2)
    (d : Descriptor) :
    (p.run (before ++ x :: after) d).attempts.map (·.about) = before ++ [x]
      ∧ (p.run (before ++ x :: after) d).fault = some (.unfit .notSingle) := by
  obtain ⟨t, dir⟩ := x
  obtain ⟨as, d₁, h⟩ := exists_chain p before d
  have ha := h.goesOn hp hbefore
  have hfault := fault_attempt_of_listGiven (d := d₁) hp hx
  have habort : (p.attempt t dir d₁).1.abort? = some (.unfit .notSingle) := by
    simp only [Attempt.abort?, hfault]
  have hrun : p.run ((t, dir) :: after) d₁ = ⟨[(p.attempt t dir d₁).1], (p.attempt t dir d₁).2⟩ :=
    run_cons_of_abort rfl habort
  rw [h.run_append ha, hrun]
  constructor
  · simp only [List.map_append, h.map_about, List.map_cons, List.map_nil, about_attempt]
  · have hnone : as.findSome? (·.abort?) = none := List.findSome?_eq_none_iff.2 ha
    simp only [Pass.fault, Pass.abort?, List.findSome?_append, hnone, List.findSome?_cons, habort,
      Option.none_or, Option.some_or]

/-- Directives that can be read either are harmless or have a first list for a single name. -/
theorem harmless_or_first {ds : List (Target × Directive)} (hread : ∀ x ∈ ds, Readable x.2) :
    (∀ x ∈ ds, Harmless x) ∨ ∃ before x after, ds = before ++ x :: after
      ∧ (∀ y ∈ before, Harmless y) ∧ ListGiven x.1 x.2 := by
  induction ds with
  | nil => exact .inl (by simp)
  | cons x ds ih =>
    rw [List.forall_mem_cons] at hread
    by_cases hx : ListGiven x.1 x.2
    · exact .inr ⟨[], x, ds, rfl, by simp, hx⟩
    · have hharmless : Harmless x := ⟨hread.1, hx⟩
      obtain h | ⟨before, y, after, rfl, hbefore, hy⟩ := ih hread.2
      · exact .inl (List.forall_mem_cons.2 ⟨hharmless, h⟩)
      · exact .inr ⟨x :: before, y, after, rfl, List.forall_mem_cons.2 ⟨hharmless, hbefore⟩, hy⟩

/-- Errors are raised as errors exactly if a batch of them can be made. -/
theorem reports_raise_iff (es : List AnnotationError) :
    (∀ f ∈ Pass.raise es, f.Reports) ↔ es.length ≤ 1 ∨ ∀ e ∈ es, e.Placeable := by
  have hraised := Pass.raisedAs_raise es
  generalize Pass.raise es = f? at hraised ⊢
  cases hraised with
  | nothing hes => exact iff_of_true nofun (.inl (by simp [hes]))
  | alone hes =>
    refine iff_of_true (fun f hf => ?_) (.inl (by simp [hes]))
    cases hf
    trivial
  | batch _ hplaces =>
    refine iff_of_true (fun f hf => ?_) (.inr hplaces)
    cases hf
    trivial
  | overlong hlen hplaces =>
    refine iff_of_false (fun h => h _ rfl) ?_
    rintro (hle | hall)
    · omega
    · exact hplaces hall

/-- **A pass over a class attempts every directive and raises errors about directives only, exactly
if no class is given a list for a single name and a batch of its errors can be made.**  The first
such list ends the pass: what stands behind it is not attempted. -/
theorem expandClass_isolates (hread : ∀ x ∈ s.directives, Readable x.2) :
    let q := ({} : Processor).expandClass s d
    ((q.attempts.map (·.about) = s.directives ∧ ∀ f ∈ q.fault, f.Reports)
        ↔ (∀ x ∈ s.directives, ¬ListGiven x.1 x.2)
          ∧ (q.errors.length ≤ 1 ∨ ∀ e ∈ q.errors, e.Placeable))
      ∧ ((∀ x ∈ s.directives, ¬ListGiven x.1 x.2) → q.attempts.map (·.about) = s.directives)
      ∧ (∀ before x after, s.directives = before ++ x :: after →
        (∀ y ∈ before, ¬ListGiven y.1 y.2) → ListGiven x.1 x.2 →
          q.attempts.map (·.about) = before ++ [x] ∧ q.fault = some (.unfit .notSingle)) := by
  intro q
  have hp : ({} : Processor).registry = .default := rfl
  have hgoesOn (hnone : ∀ x ∈ s.directives, ¬ListGiven x.1 x.2) :=
    run_of_harmless hp (fun x hx => ⟨hread x hx, hnone x hx⟩) d
  have hends : ∀ before x after, s.directives = before ++ x :: after →
      (∀ y ∈ before, ¬ListGiven y.1 y.2) → ListGiven x.1 x.2 →
        q.attempts.map (·.about) = before ++ [x] ∧ q.fault = some (.unfit .notSingle) := by
    intro before x after hds hbefore hx
    have hq : q = ({} : Processor).run (before ++ x :: after) d := by rw [← hds]; rfl
    rw [hq]
    refine run_of_listGiven hp (fun y hy => ⟨hread y ?_, hbefore y hy⟩) hx d
    rw [hds]
    exact List.mem_append_left _ hy
  refine ⟨?_, fun hnone => (hgoesOn hnone).2, hends⟩
  obtain hall | ⟨before, x, after, hds, hbefore, hx⟩ := harmless_or_first hread
  · -- the pass comes to its end, and what it raises depends on the places alone
    have hnone : ∀ x ∈ s.directives, ¬ListGiven x.1 x.2 := fun x hx => (hall x hx).2
    obtain ⟨habort, habout⟩ := hgoesOn hnone
    have hfault : q.fault = Pass.raise q.errors := fault_of_abort?_eq_none habort
    rw [hfault, reports_raise_iff]
    exact ⟨fun h => ⟨hnone, h.2⟩, fun h => ⟨habout, h.2⟩⟩
  · -- the first list makes both sides false
    refine iff_of_false (fun h => ?_) fun h => ?_
    · have hfault := (hends before x after hds (fun y hy => (hbefore y hy).2) hx).2
      exact h.2 _ hfault
    · refine h.1 x ?_ hx
      rw [hds]
      exact List.mem_append_right _ List.mem_cons_self

/-- A class with two names for its table, and a data source. -/
def twoTables : ClassSource where
  target  := .forClass "User" none none []
  comment := "!Table ('users', 'books')\n!Source 'main'"

theorem expandClass_isolates_twoTables :
    let q := ({} : Processor).expandClass twoTables { className := "User" }
    q.attempts.length = 1 ∧ q.fault = some (.unfit .notSingle) := by
  have hds : twoTables.directives = [(twoTables.target, ⟨"Table", "('users', 'books')", 0⟩),
      (twoTables.target, ⟨"Source", "'main'", 26⟩)] := by
    decide +kernel
  have htokens : Arguments.Token.ofText "('users', 'books')"
      = .ok [.mark .opening, .mark .opening, .literal "users", .mark .comma, .literal "books",
        .mark .closing, .mark .closing] := by
    decide +kernel
  have htable : Arguments.evaluate "('users', 'books')"
      = .ok ⟨[.list [.text "users", .text "books"]], .empty⟩ := by
    rw [Arguments.evaluate, htokens]
    with_unfolding_all rfl
  have hsource : Arguments.evaluate "'main'" = .ok ⟨[.text "main"], .empty⟩ := by
    with_unfolding_all rfl
  have hread : ∀ x ∈ twoTables.directives, Readable x.2 := by
    rw [hds, List.forall_mem_cons, List.forall_mem_singleton]
    exact ⟨.inl ⟨_, htable⟩, .inl ⟨_, hsource⟩⟩
  have hgiven : ListGiven twoTables.target ⟨"Table", "('users', 'books')", 0⟩ :=
    ⟨rfl, by decide, _, htable, _, rfl⟩
  obtain ⟨-, -, hends⟩ := expandClass_isolates (d := { className := "User" }) hread
  obtain ⟨habout, hfault⟩ := hends [] _ _ hds (by simp) hgiven
  exact ⟨by simpa using congrArg List.length habout, hfault⟩

end Processor

end DocDirective
