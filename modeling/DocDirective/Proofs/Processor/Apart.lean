import DocDirective.Proofs.Processor.Batching

/-!
# Proofs — Processor — Apart

Reading directives and expanding them can be done apart.  Whether a directive can be read does not
depend on what those in front of it did to the descriptor; so the invocations of a comment, expanded
one after another, take the descriptor through the same states as a pass does, and the errors of
both rounds are those of the pass (`run_apart`).  Whatever the registry is, the two ways differ only
in what is raised in the end: a pass raises its errors together, and a batch of them cannot always
be made (`expandElement_apart`).
-/

namespace DocDirective

/-! ### Invocations one after another -/

/-- What comes of invocations that are expanded one after another: the errors about them, the
descriptor in the end, and the fault that ended it early, if one did. -/
structure Harvest where
  errors     : List AnnotationError
  descriptor : Descriptor
  abort?     : Option Fault := none

/-- Expands invocations for an element one after another and collects the errors about them, with
the place of the element, up to a fault that is no such error. -/
def Invocation.expandEach (t : Target) : List Invocation → Descriptor → Harvest
  | [],        d => ⟨[], d, none⟩
  | i :: rest, d =>
    let e := i.expand t d
    match e.fault.map (Processor.locate t) with
    | none               => expandEach t rest e.descriptor
    | some (.reported x) =>
      let h := expandEach t rest e.descriptor
      { h with errors := x :: h.errors }
    | some f             => ⟨[], e.descriptor, some f⟩

/-! ### Reports -/

/-- The errors about directives that a fault carries. -/
def Fault.errors : Fault → List AnnotationError
  | .reported e => [e]
  | .batch b    => b.errors
  | _           => []

/-- The errors that a pass is reported with. -/
def Pass.reported (q : Pass) : List AnnotationError := (q.fault.map Fault.errors).getD []

/-- All errors are reported, or none where a batch of them cannot be made. -/
theorem Pass.reported_eq {q : Pass} (h : q.abort? = none) :
    (q.errors.length ≤ 1 ∨ (∀ e ∈ q.errors, e.Placeable)) ∧ q.reported = q.errors
      ∨ 2 ≤ q.errors.length ∧ (¬∀ e ∈ q.errors, e.Placeable) ∧ q.reported = []
        ∧ q.fault = some (.overlong .writing) := by
  have hraised := Processor.raisedAs_fault h
  rw [reported]
  generalize q.fault = f? at hraised ⊢
  cases hraised with
  | nothing hes           => exact .inl ⟨.inl (by simp [hes]), hes.symm⟩
  | alone hes             => exact .inl ⟨.inl (by simp [hes]), hes.symm⟩
  | batch _ hplaces       => exact .inl ⟨.inr hplaces, rfl⟩
  | overlong hlen hplaces => exact .inr ⟨hlen, hplaces, rfl, rfl⟩

namespace Processor

variable {p : Processor} {t : Target} {d : Descriptor}

/-! ### Two rounds -/

/-- A pass that is not ended early goes on behind its first directive. -/
theorem run_cons {dir : Directive} {ds : List (Target × Directive)} {a : Attempt}
    {d₁ : Descriptor} (hr : p.attempt t dir d = (a, d₁))
    (h : (p.run ((t, dir) :: ds) d).abort? = none) :
    a.abort? = none ∧ (p.run ds d₁).abort? = none
      ∧ (p.run ((t, dir) :: ds) d).descriptor = (p.run ds d₁).descriptor
      ∧ (p.run ((t, dir) :: ds) d).errors = a.error?.toList ++ (p.run ds d₁).errors := by
  cases ha : a.abort? with
  | some f =>
    rw [run_cons_of_abort hr ha, abort?_cons _ _ _ d₁, ha] at h
    cases h
  | none =>
    have hrun : p.run ((t, dir) :: ds) d
        = ⟨a :: (p.run ds d₁).attempts, (p.run ds d₁).descriptor⟩ :=
      run_cons_of_goesOn hr ha
    rw [hrun, abort?_cons _ _ _ (p.run ds d₁).descriptor, ha, Option.none_or] at h
    refine ⟨rfl, h, by rw [hrun], ?_⟩
    rw [hrun, Pass.errors, List.filterMap_cons]
    cases a.error? <;> rfl

theorem attempt_of_error {dir : Directive} {f : Fault} (hi : p.instantiate dir = .error f) :
    p.attempt t dir d = (⟨t, dir, none, some (locate t f)⟩, d) := by
  simp only [attempt, hi]

/-- A fault that is no error about a directive ends the pass. -/
theorem abort?_ne_none {dir : Directive} {begun : Option String} {f : Fault}
    (he : f.error? = none) : (⟨t, dir, begun, some (locate t f)⟩ : Attempt).abort? ≠ none := by
  cases f with
  | reported e => cases he
  | batch b => cases he
  | _ => nofun

theorem attempt_of_ok {dir : Directive} {i : Invocation} (hi : p.instantiate dir = .ok i) :
    ∃ a, p.attempt t dir d = (a, (i.expand t d).descriptor)
      ∧ a.fault = (i.expand t d).fault.map (locate t) := by
  simp only [attempt, hi]
  exact ⟨_, rfl, rfl⟩

/-- Directives that are read first and expanded afterwards leave the descriptor that a pass leaves,
and have the errors that it has. -/
theorem run_apart {ds : List Directive} (h : (p.run (ds.map fun dir => (t, dir)) d).abort? = none) :
    let q := p.run (ds.map fun dir => (t, dir)) d
    ∃ read, p.parseAll (some t) ds = .ok read
      ∧ (Invocation.expandEach t read.invocations d).abort? = none
      ∧ (Invocation.expandEach t read.invocations d).descriptor = q.descriptor
      ∧ (read.errors ++ (Invocation.expandEach t read.invocations d).errors).Perm q.errors := by
  induction ds generalizing d with
  | nil => exact ⟨⟨[], []⟩, rfl, rfl, rfl, .nil⟩
  | cons dir ds ih =>
    rw [List.map_cons] at h ⊢
    cases hi : p.instantiate dir with
    | error f =>
      obtain ⟨ha, hrest, hdescriptor, herrors⟩ := run_cons (attempt_of_error hi) h
      obtain ⟨read, hread, habort, hdesc, hperm⟩ := ih hrest
      cases he : f.error? with
      | some e =>
        -- the error comes up in the first round
        have hlocated : locate t f = .reported (e.located t.file t.line) := by rw [locate, he]
        rw [hlocated] at herrors
        refine ⟨{ read with errors := locateIn (some t) e :: read.errors }, ?_, habort,
          hdesc.trans hdescriptor.symm, ?_⟩
        · simp only [parseAll, hi, he, hread]
          rfl
        · rw [herrors]
          exact hperm.cons _
      | none => exact absurd ha (abort?_ne_none he)
    | ok i =>
      obtain ⟨a, hr, hfault⟩ := attempt_of_ok (t := t) (d := d) hi
      obtain ⟨ha, hrest, hdescriptor, herrors⟩ := run_cons hr h
      obtain ⟨read, hread, habort, hdesc, hperm⟩ := ih hrest
      rw [Attempt.abort?, hfault] at ha
      rw [Attempt.error?, hfault] at herrors
      refine ⟨{ read with invocations := i :: read.invocations }, ?_, ?_⟩
      · simp only [parseAll, hi, hread]
        rfl
      · rw [hdescriptor, herrors]
        dsimp only
        rw [Invocation.expandEach]
        dsimp only
        cases hf : (i.expand t d).fault.map (locate t) with
        | none => exact ⟨habort, hdesc, hperm⟩
        | some f =>
          cases f with
          | reported e =>
            -- the error comes up in the second round
            exact ⟨habort, hdesc, List.perm_middle.trans (hperm.cons _)⟩
          | _ =>
            rw [hf] at ha
            cases ha

/-- The errors of a pass over a comment have the place of the element. -/
theorem located_of_expandElement {s : ElementSource} (hp : p.registry = .default)
    (h : (p.expandElement s d).abort? = none) {e : AnnotationError}
    (he : e ∈ (p.expandElement s d).errors) : e.file = s.target.file ∧ e.line = s.target.line := by
  obtain ⟨a, ha, hae⟩ := List.mem_filterMap.1 he
  have hchain := chain_run h
  have habout : a.about ∈ s.directives := hchain.map_about ▸ List.mem_map_of_mem ha
  obtain ⟨dir, -, hdir⟩ := List.mem_map.1 habout
  have htarget : s.target = a.target := congrArg Prod.fst hdir
  have habout := hchain.about hp ha hae
  rw [htarget]
  exact ⟨habout.file, habout.line⟩

/-- **The directives of a comment can be read first and expanded afterwards**, whatever the registry
is.  This leaves the descriptor that a pass over the comment leaves, and the errors of both rounds
are those of the pass.  The pass reports them exactly if there is one at most or a batch of them can
be made; otherwise it reports none, and ends with the fault of the batch. -/
theorem expandElement_apart {comment : String}
    (h : (p.expandElement ⟨t, comment⟩ d).abort? = none) :
    let q := p.expandElement ⟨t, comment⟩ d
    ∃ read, p.parse comment (some t) = .ok read
      ∧ let harvest := Invocation.expandEach t read.invocations d
        harvest.abort? = none ∧ harvest.descriptor = q.descriptor
          ∧ (read.errors ++ harvest.errors).Perm q.errors
          ∧ ((read.errors ++ harvest.errors).Perm q.reported
            ↔ q.errors.length ≤ 1 ∨ ∀ e ∈ q.errors, e.Placeable)
          ∧ (¬(q.errors.length ≤ 1 ∨ ∀ e ∈ q.errors, e.Placeable) →
            q.reported = [] ∧ q.fault = some (.overlong .writing)) := by
  intro q
  obtain ⟨read, hread, habort, hdescriptor, hperm⟩ := run_apart h
  refine ⟨read, hread, habort, hdescriptor, hperm, ?_⟩
  obtain ⟨hmade, hreported⟩ | ⟨hlen, hplaces, hreported, hfault⟩ := Pass.reported_eq (q := q) h
  · refine ⟨iff_of_true ?_ hmade, fun hnot => absurd hmade hnot⟩
    rw [hreported]
    exact hperm
  · have hnot : ¬(q.errors.length ≤ 1 ∨ ∀ e ∈ q.errors, e.Placeable) := by
      rintro (hle | hall)
      · omega
      · exact hplaces hall
    refine ⟨iff_of_false (fun hall => ?_) hnot, fun _ => ⟨hreported, hfault⟩⟩
    -- there are at least two errors, and none is reported
    rw [hreported] at hall
    have hnone : q.errors.length = 0 := (hperm.symm.trans hall).length_eq
    omega

/-- A class comment with a table between a misspelt directive and one that lacks its name, on some
line. -/
def unnamedTable (line : Int) : ElementSource where
  target  := .forClass "User" (some "user.py") (some line) []
  comment := "!Tabel 'users'\n!Table 'users'\n!Table"

theorem expandElement_unnamedTable :
    let s := unnamedTable (10 ^ Overlong.limit)
    let q := ({} : Processor).expandElement s { className := "User" }
    q.abort? = none ∧ q.errors.length = 2 := by
  have hrun : (let s := unnamedTable (10 ^ Overlong.limit)
      let q := ({} : Processor).expandElement s { className := "User" }
      q.abort?.isNone && q.errors.length == 2) = true := by
    decide +kernel
  simpa only [Bool.and_eq_true, Option.isNone_iff_eq_none, beq_iff_eq] using hrun

theorem expandElement_apart_unnamedTable :
    let s := unnamedTable (10 ^ Overlong.limit)
    let q := ({} : Processor).expandElement s { className := "User" }
    ∃ read, ({} : Processor).parse s.comment (some s.target) = .ok read
      ∧ (read.errors ++ (Invocation.expandEach s.target read.invocations
        { className := "User" }).errors).length = 2
      ∧ q.reported = [] ∧ q.fault = some (.overlong .writing) := by
  intro s q
  obtain ⟨hgoesOn, hlen⟩ : q.abort? = none ∧ q.errors.length = 2 :=
    expandElement_unnamedTable
  obtain ⟨read, hread, -, -, hperm, -, hnone⟩ := expandElement_apart hgoesOn
  refine ⟨read, hread, hperm.length_eq.trans hlen, hnone ?_⟩
  show ¬(q.errors.length ≤ 1 ∨ ∀ e ∈ q.errors, e.Placeable)
  rintro (hle | hplaces)
  · omega
  · -- the line has one digit too many
    obtain ⟨e, he⟩ := List.exists_mem_of_length_pos (l := q.errors) (by omega)
    obtain ⟨hfile, hline⟩ := located_of_expandElement rfl hgoesOn he
    have hwritten := hplaces e he (by rw [hfile]; rfl) _ hline
    rw [Numeral.exists_intText_iff] at hwritten
    simp at hwritten

end Processor

end DocDirective
