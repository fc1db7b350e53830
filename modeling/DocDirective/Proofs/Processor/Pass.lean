import DocDirective.Processor

/-!
# Proofs — Processor — Pass

A pass as a chain of attempts, each at the next directive and on the descriptor that the attempt
before it left.  Unless a fault ends it early, a pass is the whole chain; if failing attempts leave
the descriptor alone, the attempts that succeed are a chain by themselves.  At its end the errors
are raised as one fault.
-/

namespace DocDirective

/-- The element and the directive of an attempt. -/
def Attempt.about (a : Attempt) : Target × Directive := (a.target, a.directive)

/-- The attempt came to its end without a fault. -/
def Attempt.succeeded (a : Attempt) : Bool := a.fault.isNone

namespace Attempt

theorem fault_of_abort?_eq_none {a : Attempt} (h : a.abort? = none) :
    a.fault = a.error?.map .reported := by
  obtain ⟨t, dir, begun, f?⟩ := a
  cases f? with
  | none => rfl
  | some f =>
    cases f with
    | reported e => rfl
    | _ => cases h

theorem abort?_of_succeeded {a : Attempt} (h : a.succeeded = true) : a.abort? = none := by
  have hf : a.fault = none := Option.isNone_iff_eq_none.1 h
  simp only [abort?, hf]

theorem error?_of_succeeded {a : Attempt} (h : a.succeeded = true) : a.error? = none := by
  have hf : a.fault = none := Option.isNone_iff_eq_none.1 h
  simp only [error?, hf]

end Attempt

namespace Processor

variable {p : Processor}

theorem about_attempt (t : Target) (dir : Directive) (d : Descriptor) :
    (p.attempt t dir d).1.about = (t, dir) := by
  unfold attempt
  split <;> rfl

/-! ### Chains of attempts -/

/-- Attempts at directives one after another, from a descriptor to the one they leave. -/
inductive Chain (p : Processor) :
    List (Target × Directive) → Descriptor → List Attempt → Descriptor → Prop where
  | nil (d : Descriptor) : Chain p [] d [] d
  | cons {t : Target} {dir : Directive} {ds : List (Target × Directive)} {d d₁ d' : Descriptor}
      {a : Attempt} {as : List Attempt}
      (h : p.attempt t dir d = (a, d₁)) (tail : Chain p ds d₁ as d') :
      Chain p ((t, dir) :: ds) d (a :: as) d'

/-- A chain attempts every directive, in order. -/
theorem Chain.map_about {ds : List (Target × Directive)} {d d' : Descriptor} {as : List Attempt}
    (h : Chain p ds d as d') : as.map (·.about) = ds := by
  induction h with
  | nil => rfl
  | cons h _ ih =>
    rename_i t dir _ d _ _ _ _ _
    rw [List.map_cons, ih, ← about_attempt (p := p) t dir d, h]

theorem run_cons_of_abort {t : Target} {dir : Directive} {ds : List (Target × Directive)}
    {d d₁ : Descriptor} {a : Attempt} {f : Fault} (h : p.attempt t dir d = (a, d₁))
    (ha : a.abort? = some f) : p.run ((t, dir) :: ds) d = ⟨[a], d₁⟩ := by
  simp only [run, h, ha]

theorem run_cons_of_goesOn {t : Target} {dir : Directive} {ds : List (Target × Directive)}
    {d d₁ : Descriptor} {a : Attempt} (h : p.attempt t dir d = (a, d₁)) (ha : a.abort? = none) :
    p.run ((t, dir) :: ds) d = ⟨a :: (p.run ds d₁).attempts, (p.run ds d₁).descriptor⟩ := by
  simp only [run, h, ha]

theorem abort?_cons (a : Attempt) (as : List Attempt) (d d' : Descriptor) :
    Pass.abort? ⟨a :: as, d⟩ = a.abort?.or (Pass.abort? ⟨as, d'⟩) := by
  simp only [Pass.abort?, List.findSome?_cons]
  cases a.abort? <;> rfl

/-- A pass that is not ended early is a chain. -/
theorem chain_run {ds : List (Target × Directive)} {d : Descriptor}
    (h : (p.run ds d).abort? = none) :
    Chain p ds d (p.run ds d).attempts (p.run ds d).descriptor := by
  induction ds generalizing d with
  | nil => exact .nil d
  | cons td ds ih =>
    obtain ⟨t, dir⟩ := td
    cases hr : p.attempt t dir d with
    | mk a d₁ =>
      cases ha : a.abort? with
      | some f =>
        rw [run_cons_of_abort hr ha, abort?_cons _ _ _ d₁, ha] at h
        cases h
      | none =>
        -- the tail is not ended early either
        rw [run_cons_of_goesOn hr ha] at h ⊢
        rw [abort?_cons _ _ _ (p.run ds d₁).descriptor, ha, Option.none_or] at h
        exact .cons hr (ih h)

/-- The attempts of a pass are a chain at directives from its front, also if it is ended early. -/
theorem chain_attempts (ds : List (Target × Directive)) (d : Descriptor) :
    (p.run ds d).attempts.map (·.about) <+: ds
      ∧ Chain p ((p.run ds d).attempts.map (·.about)) d (p.run ds d).attempts
        (p.run ds d).descriptor := by
  induction ds generalizing d with
  | nil => exact ⟨List.prefix_rfl, .nil d⟩
  | cons td ds ih =>
    obtain ⟨t, dir⟩ := td
    cases hr : p.attempt t dir d with
    | mk a d₁ =>
      have habout : a.about = (t, dir) := by rw [← about_attempt (p := p) t dir d, hr]
      cases ha : a.abort? with
      | some f =>
        rw [run_cons_of_abort hr ha]
        simp only [List.map_cons, habout, List.map_nil]
        exact ⟨List.cons_prefix_cons.2 ⟨rfl, List.nil_prefix⟩, .cons hr (.nil d₁)⟩
      | none =>
        obtain ⟨hfront, hchain⟩ := ih d₁
        rw [run_cons_of_goesOn hr ha]
        simp only [List.map_cons, habout]
        exact ⟨List.cons_prefix_cons.2 ⟨rfl, hfront⟩, .cons hr hchain⟩

/-- A chain that nothing ends early is a pass, whatever comes behind it. -/
theorem Chain.run_append {ds : List (Target × Directive)} {d d' : Descriptor} {as : List Attempt}
    (h : Chain p ds d as d') (ha : ∀ a ∈ as, a.abort? = none) (es : List (Target × Directive)) :
    p.run (ds ++ es) d = ⟨as ++ (p.run es d').attempts, (p.run es d').descriptor⟩ := by
  induction h with
  | nil => rfl
  | cons h _ ih =>
    rw [List.forall_mem_cons] at ha
    rw [List.cons_append, run_cons_of_goesOn h ha.1, ih ha.2]
    rfl

theorem Chain.run_eq {ds : List (Target × Directive)} {d d' : Descriptor} {as : List Attempt}
    (h : Chain p ds d as d') (ha : ∀ a ∈ as, a.abort? = none) : p.run ds d = ⟨as, d'⟩ := by
  have := h.run_append ha []
  rw [List.append_nil] at this
  rw [this, run, List.append_nil]

/-- There is a chain for any directives. -/
theorem exists_chain (p : Processor) (ds : List (Target × Directive)) (d : Descriptor) :
    ∃ as d', Chain p ds d as d' := by
  induction ds generalizing d with
  | nil => exact ⟨[], d, .nil d⟩
  | cons td ds ih =>
    obtain ⟨as, d', h⟩ := ih (p.attempt td.1 td.2 d).2
    exact ⟨_, d', .cons rfl h⟩

/-- Failing attempts leave the descriptor as it is. -/
def Spares (p : Processor) : Prop :=
  ∀ t dir d, (p.attempt t dir d).1.fault ≠ none → (p.attempt t dir d).2 = d

/-- The attempts of a chain that succeed are a chain with the same end. -/
theorem Chain.filter_succeeded (hp : p.Spares) {ds : List (Target × Directive)}
    {d d' : Descriptor} {as : List Attempt} (h : Chain p ds d as d') :
    Chain p ((as.filter (·.succeeded)).map (·.about)) d (as.filter (·.succeeded)) d' := by
  induction h with
  | nil d => exact .nil d
  | cons h _ ih =>
    rename_i t dir _ d d₁ _ a as _
    cases ha : a.succeeded with
    | true =>
      have habout : a.about = (t, dir) := by rw [← about_attempt (p := p) t dir d, h]
      rw [List.filter_cons_of_pos ha, List.map_cons, habout]
      exact .cons h ih
    | false =>
      -- the attempt is left out: it did not change the descriptor
      have hfault : (p.attempt t dir d).1.fault ≠ none := by
        rw [h]
        intro hn
        rw [Attempt.succeeded, hn] at ha
        cases ha
      have hd : d₁ = d := by
        have := hp t dir d hfault
        rwa [h] at this
      rw [List.filter_cons_of_neg (by rw [ha]; exact Bool.false_ne_true)]
      exact hd ▸ ih

end Processor

/-! ### Raising errors -/

namespace AnnotationError

/-- The place of the error can be written in front of a line of a batch. -/
def Placeable (e : AnnotationError) : Prop :=
  e.file.isSome = true → ∀ n ∈ e.line, ∃ s, Numeral.intText n = .ok s

theorem placeOverlong?_eq_none_iff {e : AnnotationError} :
    e.placeOverlong? = none ↔ e.Placeable := by
  unfold placeOverlong? overlong? Placeable
  cases e.file with
  | none => simp
  | some f =>
    cases e.line with
    | none => simp
    | some n => cases hn : Numeral.intText n <;> simp [hn]

theorem placeOverlong?_eq_writing {e : AnnotationError} {o : Overlong}
    (h : e.placeOverlong? = some o) : o = .writing := by
  unfold placeOverlong? overlong? at h
  split at h
  · split at h
    · rename_i o' hn
      obtain ⟨n, -, hn⟩ := Option.map_eq_some_iff.1 hn
      unfold Numeral.intText at hn
      split at hn
      · cases hn
        exact (Option.some.inj h).symm
      · cases hn
    · cases h
  · cases h

/-- Where the place of an error cannot be written, the reason is that. -/
theorem findSome?_placeOverlong?_eq_writing {es : List AnnotationError}
    (h : ¬∀ e ∈ es, e.Placeable) : es.findSome? (·.placeOverlong?) = some .writing := by
  cases ho : es.findSome? (·.placeOverlong?) with
  | none =>
    refine absurd (fun e he => ?_) h
    exact placeOverlong?_eq_none_iff.1 (List.findSome?_eq_none_iff.1 ho e he)
  | some o =>
    obtain ⟨e, -, he⟩ := List.exists_of_findSome?_eq_some ho
    rw [placeOverlong?_eq_writing he]

theorem findSome?_placeOverlong?_eq_none {es : List AnnotationError}
    (h : ∀ e ∈ es, e.Placeable) : es.findSome? (·.placeOverlong?) = none :=
  List.findSome?_eq_none_iff.2 fun e he => placeOverlong?_eq_none_iff.2 (h e he)

end AnnotationError

namespace Pass

theorem raise_of_two_le {es : List AnnotationError} (h : 2 ≤ es.length) :
    raise es = match ErrorBatch.ofErrors es with
      | .ok b    => some (.batch b)
      | .error o => some (.overlong o) := by
  match es, h with
  | _ :: _ :: _, _ => rfl

theorem raise_batch {es : List AnnotationError} (h : 2 ≤ es.length)
    (hplaces : ∀ e ∈ es, e.Placeable) : raise es = some (.batch ⟨es⟩) := by
  rw [raise_of_two_le h, ErrorBatch.ofErrors,
    AnnotationError.findSome?_placeOverlong?_eq_none hplaces]

theorem raise_overlong {es : List AnnotationError} (h : 2 ≤ es.length)
    (hplaces : ¬∀ e ∈ es, e.Placeable) : raise es = some (.overlong .writing) := by
  rw [raise_of_two_le h, ErrorBatch.ofErrors,
    AnnotationError.findSome?_placeOverlong?_eq_writing hplaces]

/-- What errors are raised as. -/
inductive RaisedAs (es : List AnnotationError) : Option Fault → Prop
  | nothing (h : es = []) : RaisedAs es none
  | alone {e : AnnotationError} (h : es = [e]) : RaisedAs es (some (.reported e))
  | batch (h : 2 ≤ es.length) (hplaces : ∀ e ∈ es, e.Placeable) :
    RaisedAs es (some (.batch ⟨es⟩))
  | overlong (h : 2 ≤ es.length) (hplaces : ¬∀ e ∈ es, e.Placeable) :
    RaisedAs es (some (.overlong .writing))

theorem raisedAs_raise (es : List AnnotationError) : RaisedAs es (raise es) := by
  match es with
  | []             => exact .nothing rfl
  | [e]            => exact .alone rfl
  | e :: e' :: rest =>
    have hlen : 2 ≤ (e :: e' :: rest).length := by simp
    by_cases hplaces : ∀ x ∈ e :: e' :: rest, x.Placeable
    · rw [raise_batch hlen hplaces]
      exact .batch hlen hplaces
    · rw [raise_overlong hlen hplaces]
      exact .overlong hlen hplaces

end Pass

end DocDirective
