import DocDirective.Proofs.Invocation.Expansion

/-!
# Proofs — Invocation — Lifecycle

The life of an invocation.  Rules are applied to it, its element is set and it is expanded, in any
order and any number of times, and any of this may end in a fault half-way.  What one expansion can
come to is said once (`Outcome`); one operation keeps the states sound and only goes on from them
(`Sound`, `Onward`), and the whole life follows by induction on the operations (`lifecycle`).
-/

namespace DocDirective

/-! ### Complaints only grow -/

theorem prefix_note (es : List String) (c : String) : es <+: note es c := by
  unfold note
  split
  · exact List.prefix_rfl
  · exact List.prefix_append _ _

theorem prefix_foldl_note (es cs : List String) : es <+: cs.foldl note es := by
  induction cs generalizing es with
  | nil => exact List.prefix_rfl
  | cons c cs ih => exact (prefix_note es c).trans (ih _)

theorem prefix_gather {add : List String → String → List String}
    (hadd : ∀ es m, es <+: add es m) (es : List String) (cs : Complaints) :
    es <+: (gather add es cs).1 := by
  induction cs generalizing es with
  | nil => exact List.prefix_rfl
  | cons c cs ih =>
    cases c with
    | error f => exact List.prefix_rfl
    | ok m => exact (hadd es m).trans (ih _)

namespace Check

theorem prefix_run (s : Subject) (es : List String) (c : Check) : es <+: (c.run s es).1 := by
  cases c with
  | rule r => exact prefix_gather prefix_note es _
  | own look => exact prefix_gather (fun es m => List.prefix_append es [m]) es _

theorem prefix_runAll (s : Subject) (es : List String) (checks : List Check) :
    es <+: (runAll s es checks).1 := by
  induction checks generalizing es with
  | nil => exact List.prefix_rfl
  | cons c checks ih =>
    have hrun := prefix_run s es c
    rw [runAll]
    split
    · rename_i errors heq
      rw [heq] at hrun
      exact hrun.trans (ih errors)
    · rename_i errors f heq
      rw [heq] at hrun
      exact hrun

end Check

namespace Invocation

theorem prefix_convert (fields : Keyed Field) (es : List (String × Value)) (errors : List String)
    (converted : Keyed Value) : errors <+: (convert fields es errors converted).1 := by
  induction es generalizing errors converted with
  | nil => exact List.prefix_rfl
  | cons e es ih =>
    rw [convert_cons]
    split
    · exact List.prefix_rfl
    · exact (prefix_foldl_note errors _).trans (ih _ _)

/-! ### One expansion -/

/-- The same invocation, of a kind with another change of descriptors. -/
def withChange (i : Invocation) (change : Binding → Descriptor → Descriptor × Option Fault) :
    Invocation :=
  { i with kind := { i.kind with expand := change } }

/-- An invocation on which nothing but checks has been made: the complaints have grown, and nothing
is bound. -/
structure Checked (i j : Invocation) : Prop where
  errors     : i.errors <+: j.errors
  parameters : j.parameters = i.parameters
  kind       : j.kind = i.kind
  stage      : j.stage = i.stage ∨ j.stage = .typeChecked

theorem checked_started (i : Invocation) (mask : Mask) (t : Target) :
    Checked i (i.started mask t) := by
  unfold started
  split
  · exact ⟨List.prefix_rfl, rfl, rfl, .inr rfl⟩
  · exact ⟨prefix_note _ _, rfl, rfl, .inl rfl⟩

/-- The kind's own change has no part in the checks. -/
theorem checkAndExpand_withChange (i : Invocation) (mask : Mask) (t : Target) (d : Descriptor)
    (change : Binding → Descriptor → Descriptor × Option Fault) :
    (i.withChange change).checkAndExpand mask t d =
      match Check.runAll (i.started mask t).subject (i.started mask t).errors i.kind.checks with
      | (errors, some f) =>
        ⟨withChange { i.started mask t with errors := errors } change, d, some f⟩
      | (errors, none)   =>
        match i.parameters with
        | none   => ⟨withChange { i.started mask t with errors := errors } change, d,
          some (.alreadyBound i.kind.name)⟩
        | some p =>
          match convert i.kind.fields p.keyed.entries errors .empty with
          | (errors, _, some f)    =>
            ⟨withChange { i.started mask t with errors := errors } change, d, some f⟩
          | ([], converted, none)  =>
            bindAndExpand (withChange { i.started mask t with errors := [] } change) p t converted d
          | (e :: errors, _, none) =>
            ⟨withChange { i.started mask t with errors := e :: errors, stage := .failed } change, d,
              some (.reported (failure i.kind t (e :: errors) (!mask.contains t.kind)))⟩ := by
  rw [checkAndExpand_eq]
  unfold started
  cases hin : mask.contains t.kind <;> rfl

/-- How an expansion from the first state ends, whatever the kind's own change is: with a fault in
front of it, or by binding and making it. -/
inductive Course (i : Invocation) (t : Target) (d : Descriptor) : Prop where
  | stopped {j : Invocation} {f : Fault}
      (heq : ∀ change, (i.withChange change).expand t d = ⟨j.withChange change, d, some f⟩)
      (hgrow : i.errors <+: j.errors) (hparameters : j.parameters = i.parameters)
      (hkind : j.kind = i.kind)
      (hstage : j.stage = .parsed ∨ j.stage = .typeChecked ∨ j.stage = .failed ∧ j.errors ≠ [])
  | bound {j : Invocation} {p : Parameters} {b : Keyed Value}
      (heq : ∀ change, (i.withChange change).expand t d
        = (j.withChange change).bindAndExpand p t b d)
      (herrors : i.errors = []) (hclean : j.errors = []) (hkind : j.kind = i.kind)

theorem course_of_parsed {i : Invocation} (hparsed : i.stage = .parsed) (t : Target)
    (d : Descriptor) : Course i t d := by
  cases hmask : i.kind.mask with
  | none =>
    have hexpand (change) : (i.withChange change).expand t d
        = ⟨(i.retarget t).withChange change, d, some (.noTargets i.kind.name)⟩ := by
      simp only [expand, withChange, retarget, hparsed, hmask, if_true]
    exact .stopped hexpand List.prefix_rfl rfl rfl (.inl hparsed)
  | some mask =>
    have hexpand (change) : (i.withChange change).expand t d
        = ((i.retarget t).withChange change).checkAndExpand mask t d := by
      simp only [expand, withChange, retarget, hparsed, hmask, if_true]
    simp only [checkAndExpand_withChange] at hexpand
    obtain ⟨hstart, hparameters, hkind, hstage⟩ := checked_started (i.retarget t) mask t
    generalize (i.retarget t).started mask t = j at *
    have hstage : j.stage = .parsed ∨ j.stage = .typeChecked := hparsed ▸ hstage
    have hgrow := hstart.trans (Check.prefix_runAll j.subject j.errors (i.retarget t).kind.checks)
    cases hrun : Check.runAll j.subject j.errors (i.retarget t).kind.checks with
    | mk errors f? =>
      rw [hrun] at hgrow
      cases f? with
      | some f =>
        simp only [hrun] at hexpand
        exact .stopped hexpand hgrow hparameters hkind (hstage.imp_right .inl)
      | none =>
        cases hp : (i.retarget t).parameters with
        | none =>
          simp only [hrun, hp] at hexpand
          exact .stopped hexpand hgrow hparameters hkind (hstage.imp_right .inl)
        | some p =>
          have hall := hgrow.trans
            (prefix_convert (i.retarget t).kind.fields p.keyed.entries errors .empty)
          cases hc : convert (i.retarget t).kind.fields p.keyed.entries errors .empty with
          | mk complaints rest =>
            obtain ⟨converted, f?⟩ := rest
            rw [hc] at hall
            cases f? with
            | some f =>
              simp only [hrun, hp, hc] at hexpand
              exact .stopped hexpand hall hparameters hkind (hstage.imp_right .inl)
            | none =>
              cases complaints with
              | nil =>
                simp only [hrun, hp, hc] at hexpand
                exact .bound hexpand (List.prefix_nil.1 hall) rfl hkind
              | cons e es =>
                simp only [hrun, hp, hc] at hexpand
                exact .stopped hexpand hall hparameters hkind
                  (.inr (.inr ⟨rfl, List.cons_ne_nil e es⟩))

/-- What an expansion hands to the kind's own change, if it comes to it: what is bound where nothing
but that change could fail. -/
def handed? (i : Invocation) (t : Target) (d : Descriptor) : Option Binding :=
  match (i.withChange fun _ d => (d, none)).expand t d with
  | ⟨j, _, none⟩   => some ⟨i.kind.name, j.values, j.slots, t⟩
  | ⟨_, _, some _⟩ => none

/-- What an expansion comes to, with what it hands to the kind's own change.  It is refused behind
the first state; it stops with a fault before anything is bound; or it finds nothing, binds, and
ends as the kind's own change does. -/
inductive Outcome (i : Invocation) (t : Target) (d : Descriptor) :
    Expansion → Option Binding → Prop where
  | refused (h : i.stage ≠ .parsed) :
      Outcome i t d ⟨i, d, some (.alreadyExpanded i.kind.name i.stage)⟩ none
  | stopped {j : Invocation} {f : Fault} (h : i.stage = .parsed) (hgrow : i.errors <+: j.errors)
      (hparameters : j.parameters = i.parameters) (hkind : j.kind = i.kind)
      (hstage : j.stage = .parsed ∨ j.stage = .typeChecked ∨ j.stage = .failed ∧ j.errors ≠ []) :
      Outcome i t d ⟨j, d, some f⟩ none
  | begun {j : Invocation} {b : Binding} {d' : Descriptor} {f? : Option Fault}
      (h : i.stage = .parsed) (herrors : i.errors = []) (hclean : j.errors = [])
      (hparameters : j.parameters = none) (hkind : j.kind = i.kind)
      (hstage : j.stage = if f?.isNone then .expanded else .bound)
      (hchange : i.kind.expand b d = (d', f?)) : Outcome i t d ⟨j, d', f?⟩ (some b)

theorem withChange_eq_self {i j : Invocation} (h : j.kind = i.kind) :
    j.withChange i.kind.expand = j := by
  rw [← h]
  rfl

theorem outcome_expand (i : Invocation) (t : Target) (d : Descriptor) :
    Outcome i t d (i.expand t d) (i.handed? t d) := by
  by_cases hparsed : i.stage = .parsed
  · cases course_of_parsed hparsed t d with
    | @stopped j f heq hgrow hparameters hkind hstage =>
      have hexpand := heq i.kind.expand
      rw [withChange_eq_self rfl, withChange_eq_self hkind] at hexpand
      have hhanded : i.handed? t d = none := by
        rw [handed?, heq]
      rw [hexpand, hhanded]
      exact .stopped hparsed hgrow hparameters hkind hstage
    | @bound j p converted heq herrors hclean hkind =>
      have hexpand := heq i.kind.expand
      rw [withChange_eq_self rfl, withChange_eq_self hkind] at hexpand
      have hhanded : i.handed? t d
          = some ⟨i.kind.name, p.positional, j.slots.insertAll converted.entries, t⟩ := by
        rw [handed?, heq]
        rfl
      rw [hexpand, hhanded, bindAndExpand]
      cases hchange : i.kind.expand
          ⟨i.kind.name, p.positional, j.slots.insertAll converted.entries, t⟩ d with
      | mk d' f? =>
        simp only [hkind, hchange]
        cases f? with
        | none => exact .begun hparsed herrors hclean rfl rfl rfl hchange
        | some f => exact .begun hparsed herrors hclean rfl rfl rfl hchange
  · have hexpand : i.expand t d = ⟨i, d, some (.alreadyExpanded i.kind.name i.stage)⟩ :=
      if_neg hparsed
    have hhanded : i.handed? t d = none := by
      have hidle : (i.withChange fun _ d => (d, none)).expand t d
          = ⟨i.withChange fun _ d => (d, none), d,
            some (.alreadyExpanded i.kind.name i.stage)⟩ := if_neg hparsed
      rw [handed?, hidle]
    rw [hexpand, hhanded]
    exact .refused hparsed

/-! ### One operation -/

/-- What can be done to an invocation. -/
inductive Operation
  | check    (r : Rule)
  | retarget (t : Target)
  | expand   (t : Target) (d : Descriptor)

/-- The invocation after an operation, whether or not it ended in a fault. -/
def after (i : Invocation) : Operation → Invocation
  | .check r    => (i.check r).1
  | .retarget t => i.retarget t
  | .expand t d => (i.expand t d).invocation

/-- The parameters are out of reach exactly where a slot stands in front of them or where they are
bound, and a failure has complaints. -/
structure Sound (i : Invocation) : Prop where
  bound  : i.parameters = none
    ↔ i.kind.hidesParameters = true ∨ i.stage = .bound ∨ i.stage = .expanded
  failed : i.stage = .failed → i.errors ≠ []

/-- Complaints are only added at the end, and the first state is left for good. -/
structure Onward (i j : Invocation) : Prop where
  errors : i.errors <+: j.errors
  stage  : i.stage ≠ .parsed → j.stage ≠ .parsed
  kind   : j.kind = i.kind

theorem Onward.refl (i : Invocation) : Onward i i := ⟨List.prefix_rfl, id, rfl⟩

theorem Onward.trans {i j k : Invocation} (h₁ : Onward i j) (h₂ : Onward j k) : Onward i k where
  errors := h₁.errors.trans h₂.errors
  stage  := h₂.stage ∘ h₁.stage
  kind   := h₂.kind.trans h₁.kind

theorem errors_ne_nil {es es' : List String} (h : es <+: es') (hne : es ≠ []) : es' ≠ [] := by
  rintro rfl
  exact hne (List.prefix_nil.1 h)

theorem onward_after (i : Invocation) (o : Operation) : Onward i (i.after o) := by
  cases o with
  | check r => exact ⟨Check.prefix_run i.subject i.errors (.rule r), id, rfl⟩
  | retarget t => exact ⟨List.prefix_rfl, id, rfl⟩
  | expand t d =>
    have hexpand := outcome_expand i t d
    show Onward i (i.expand t d).invocation
    generalize i.expand t d = e, i.handed? t d = b? at hexpand
    cases hexpand with
    | refused h => exact .refl i
    | stopped h hgrow hparameters hkind hstage => exact ⟨hgrow, absurd h, hkind⟩
    | begun h herrors hclean hparameters hkind hstage hchange =>
      exact ⟨herrors ▸ List.nil_prefix, absurd h, hkind⟩

theorem Sound.after {i : Invocation} (h : Sound i) (o : Operation) : Sound (i.after o) := by
  cases o with
  | check r =>
    exact ⟨h.bound, fun hf => errors_ne_nil (onward_after i (.check r)).errors (h.failed hf)⟩
  | retarget t => exact ⟨h.bound, h.failed⟩
  | expand t d =>
    have hexpand := outcome_expand i t d
    show Sound (i.expand t d).invocation
    generalize i.expand t d = e, i.handed? t d = b? at hexpand
    cases hexpand with
    | refused _ => exact h
    | @stopped j f hparsed hgrow hparameters hkind hstage =>
      -- the parameters are as they were, as nothing has been bound
      have hkept : j.parameters = none ↔ j.kind.hidesParameters = true := by
        rw [hparameters, hkind, h.bound, hparsed]
        simp
      rcases hstage with hs | hs | ⟨hs, hne⟩
      · exact ⟨hkept.trans (by simp [hs]), by simp [hs]⟩
      · exact ⟨hkept.trans (by simp [hs]), by simp [hs]⟩
      · exact ⟨hkept.trans (by simp [hs]), fun _ => hne⟩
    | @begun j b d' f? _ _ hclean hparameters hkind hstage hchange =>
      cases f? with
      | none => exact ⟨iff_of_true hparameters (.inr (.inr hstage)), by simp [hstage]⟩
      | some f => exact ⟨iff_of_true hparameters (.inr (.inl hstage)), by simp [hstage]⟩

/-- The invocation after operations, one after another. -/
def afterAll (i : Invocation) (os : List Operation) : Invocation := os.foldl after i

theorem onward_afterAll (i : Invocation) (os : List Operation) : Onward i (i.afterAll os) := by
  induction os generalizing i with
  | nil => exact .refl i
  | cons o os ih => exact (onward_after i o).trans (ih (i.after o))

theorem Sound.afterAll {i : Invocation} (h : Sound i) (os : List Operation) :
    Sound (i.afterAll os) := by
  induction os generalizing i with
  | nil => exact h
  | cons o os ih => exact ih (h.after o)

end Invocation

end DocDirective
