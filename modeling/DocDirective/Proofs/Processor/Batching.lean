import DocDirective.Proofs.Processor.Attempt

/-!
# Proofs — Processor — Batching

What a pass over a class comes to if no fault ends it early.  Every directive is attempted, in
order, and the errors are raised together at the end; whatever fails leaves no trace in the
descriptor where the kinds that are always there are registered.
-/

namespace DocDirective.Processor

variable {p : Processor} {s : ClassSource} {d : Descriptor}

theorem abort?_of_pass {q : Pass} (h : q.abort? = none) {a : Attempt} (ha : a ∈ q.attempts) :
    a.abort? = none :=
  List.findSome?_eq_none_iff.1 h a ha

/-- A pass that is not ended early ends with what its errors are raised as. -/
theorem fault_of_abort?_eq_none {q : Pass} (h : q.abort? = none) :
    q.fault = Pass.raise q.errors := by
  rw [Pass.fault, h, Option.none_or]

theorem raisedAs_fault {q : Pass} (h : q.abort? = none) : Pass.RaisedAs q.errors q.fault :=
  fault_of_abort?_eq_none h ▸ Pass.raisedAs_raise q.errors

/-- The errors of a pass over the kinds that are always there are each about one element. -/
theorem Chain.about (hp : p.registry = .default) {ds : List (Target × Directive)}
    {d d' : Descriptor} {as : List Attempt} (h : Chain p ds d as d') {a : Attempt} (ha : a ∈ as)
    {e : AnnotationError} (he : a.error? = some e) : e.About a.target := by
  induction h with
  | nil => cases ha
  | cons h _ ih =>
    rename_i t dir _ d d₁ _ b _ _
    rcases List.mem_cons.1 ha with rfl | ha
    · have hout := outcome_attempt hp t dir d
      have habout : a.about = (t, dir) := by rw [← about_attempt (p := p) t dir d, h]
      obtain rfl : a.target = t := congrArg Prod.fst habout
      rw [h] at hout
      have hfault : a.fault = some (.reported e) := by
        unfold Attempt.error? at he
        split at he
        · rename_i hf
          cases he
          exact hf
        · cases he
      dsimp only at hout
      rw [hfault] at hout
      cases hout with
      | reported habout => exact habout
      | unread _ hf => exact absurd rfl (hf e)
    · exact ih ha

/-- Running the directives that succeeded leaves the same descriptor, without a fault. -/
theorem Chain.run_succeeded (hp : p.Spares) {ds : List (Target × Directive)} {d d' : Descriptor}
    {as : List Attempt} (h : Chain p ds d as d') :
    p.run ((as.filter (·.succeeded)).map (·.about)) d = ⟨as.filter (·.succeeded), d'⟩ :=
  (h.filter_succeeded hp).run_eq fun _ ha =>
    Attempt.abort?_of_succeeded (List.of_mem_filter ha)

theorem fault_of_succeeded {as : List Attempt} (h : ∀ a ∈ as, a.succeeded = true)
    (d : Descriptor) : Pass.fault ⟨as, d⟩ = none := by
  have habort : Pass.abort? ⟨as, d⟩ = none :=
    List.findSome?_eq_none_iff.2 fun a ha => Attempt.abort?_of_succeeded (h a ha)
  have herrors : Pass.errors ⟨as, d⟩ = [] :=
    List.filterMap_eq_nil_iff.2 fun a ha => Attempt.error?_of_succeeded (h a ha)
  rw [fault_of_abort?_eq_none habort, herrors]
  rfl

/-- **A pass over a class attempts its directives one after another and raises their errors
together.**  No error raises nothing and one error is raised as it is; several are raised as a
batch, exactly if the places of all of them can be written.  Where the kinds that are always there
are registered, every error has the place of its element, and the descriptor is the one that the
directives without an error give by themselves. -/
theorem expandClass_batches (h : (p.expandClass s d).abort? = none) :
    let q := p.expandClass s d
    Chain p s.directives d q.attempts q.descriptor
      ∧ q.attempts.map (·.about) = s.directives
      ∧ (∀ a ∈ q.attempts, a.fault = a.error?.map .reported)
      ∧ (q.errors = [] → q.fault = none)
      ∧ (∀ e, q.errors = [e] → q.fault = some (.reported e))
      ∧ (2 ≤ q.errors.length →
        ((∀ e ∈ q.errors, e.Placeable) → q.fault = some (.batch ⟨q.errors⟩))
          ∧ (¬(∀ e ∈ q.errors, e.Placeable) → q.fault = some (.overlong .writing)))
      ∧ (p.registry = .default →
        (∀ a ∈ q.attempts, ∀ e, a.error? = some e →
          e.file = a.target.file ∧ e.line = a.target.line)
          ∧ (p.run ((q.attempts.filter (·.succeeded)).map (·.about)) d).descriptor = q.descriptor
          ∧ (p.run ((q.attempts.filter (·.succeeded)).map (·.about)) d).fault = none) := by
  intro q
  have hchain : Chain p s.directives d q.attempts q.descriptor := chain_run h
  have hfault : q.fault = Pass.raise q.errors := fault_of_abort?_eq_none h
  refine ⟨hchain, hchain.map_about, fun a ha => ?_, fun he => ?_, fun e he => ?_, fun hlen => ?_,
    fun hp => ?_⟩
  · exact Attempt.fault_of_abort?_eq_none (abort?_of_pass h ha)
  · rw [hfault, he]
    rfl
  · rw [hfault, he]
    rfl
  · rw [hfault]
    exact ⟨Pass.raise_batch hlen, Pass.raise_overlong hlen⟩
  · have hrun := hchain.run_succeeded (spares_default hp)
    refine ⟨fun a ha e he => ?_, ?_, ?_⟩
    · have habout := hchain.about hp ha he
      exact ⟨habout.file, habout.line⟩
    · rw [hrun]
    · rw [hrun]
      exact fault_of_succeeded (fun a ha => List.of_mem_filter ha) _

/-- A class and a method with misspelt directives. -/
def misspelt : ClassSource where
  target  := .forClass "User" (some "user.py") (some 3) []
  comment := "!Table 'users'\n!Tabel 'users'"
  members := [⟨⟨.ofMethod, "User", "show", some "user.py", some 9, []⟩, "!Root"⟩]

theorem expandClass_batches_misspelt :
    let q := ({} : Processor).expandClass misspelt { className := "User" }
    q.errors.length = 2 ∧ q.fault = some (.batch ⟨q.errors⟩) := by
  have hrun : (let q := ({} : Processor).expandClass misspelt { className := "User" }
      q.abort?.isNone && q.errors.length == 2
        && q.errors.all fun e => e.placeOverlong?.isNone) = true := by
    decide +kernel
  intro q
  simp only [Bool.and_eq_true, Option.isNone_iff_eq_none, beq_iff_eq, List.all_eq_true] at hrun
  obtain ⟨⟨habort, hlen⟩, hplaces⟩ := hrun
  obtain ⟨-, -, -, -, -, hbatch, -⟩ := expandClass_batches habort
  refine ⟨hlen, (hbatch hlen.ge).1 fun e he => ?_⟩
  exact AnnotationError.placeOverlong?_eq_none_iff.1 (hplaces e he)

end DocDirective.Processor
