import DocDirective.Proofs.Kind.Contribution
import DocDirective.Proofs.Kind.Wording

/-!
# Proofs — Invocation — Atomicity

An expansion that fails leaves no trace in the descriptor, and one that reports an error has bound
nothing either (`expand_atomic`).  The kinds that are always there do all that can fail before they
write (`Kind.refused_of_fault`), and where one of their checks cannot word a complaint it reports
nothing (`Kind.unreported_builtins`); so every report is the verdict of the checks, and comes before
anything is bound.
-/

namespace DocDirective

/-! ### Faults that are no reports -/

/-- No report ends the complaints. -/
def Unreported (cs : Complaints) : Prop := ∀ e, .error (.reported e) ∉ cs

theorem Opened.unreported {openings : List String} {cs : Complaints} (h : Opened openings cs) :
    Unreported cs :=
  fun e hmem => h _ hmem e rfl

namespace Kind

variable {k : Kind}

/-- The checks of the kinds that are always there report nothing themselves. -/
theorem unreported_builtins (hk : k ∈ builtins) {c : Check} (hc : c ∈ k.checks) (s : Subject) :
    Unreported (c.complaints s) := by
  cases c with
  | rule r => exact (Rule.opened s r).unreported
  | own look =>
    simp only [builtins, List.mem_cons, List.not_mem_nil, or_false] at hk
    rcases hk with rfl | rfl | rfl | rfl | rfl | rfl | rfl <;>
      simp only [route, routesPrefix, table, source, column, hasMany, belongsTo, relationChecks,
        List.mem_cons, reduceCtorEq, Check.own.injEq, false_or, or_false, List.not_mem_nil] at hc
    · exact hc ▸ openedOnce_lookAtRoute.opened.unreported
    · exact hc ▸ openedOnce_lookAtColumn.opened.unreported
    · exact hc ▸ openedOnce_lookAtRelation.opened.unreported
    · exact hc ▸ openedOnce_lookAtRelation.opened.unreported

end Kind

/-! ### All or nothing -/

namespace Invocation

variable {k : Kind} {p : Parameters} {t : Target} {d : Descriptor} {f : Fault}

/-- The parameters, the values and the slots are the same. -/
structure BindsAs (i j : Invocation) : Prop where
  parameters : i.parameters = j.parameters
  values     : i.values = j.values
  slots      : i.slots = j.slots

/-- A report of what the checks found: nothing is bound, and the expansion has failed. -/
structure Withdrawn (before after : Invocation) (e : AnnotationError) : Prop where
  findings : e.cause.findings?.isSome = true
  binds    : after.BindsAs before
  failed   : after.stage = .failed

theorem findings?_failure (k : Kind) (t : Target) (errors : List String) (misplaced : Bool) :
    (failure k t errors misplaced).cause.findings?.isSome = true := by
  cases misplaced <;> rfl

/-- What an expansion that ends in a fault leaves of a new invocation and of the descriptor. -/
structure Atomic (before : Invocation) (d : Descriptor) (f : Fault) (x : Expansion) : Prop where
  descriptor : x.descriptor = d
  report     : ∀ e, f = .reported e → Withdrawn before x.invocation e
  failed     : x.invocation.stage = .failed → ∃ e, f = .reported e

/-- A fault after the verdict is one of the kind's own change. -/
theorem atomic_bindAndExpand (hk : k ∈ Kind.builtins) {i : Invocation} (hi : i.kind = k)
    {b : Keyed Value} (h : (bindAndExpand i p t b d).fault = some f) (before : Invocation) :
    Atomic before d f (bindAndExpand i p t b d) := by
  obtain ⟨hbegun, -, -, hchange⟩ := bindAndExpand_eq i p t b d
  rw [h, hi] at hchange
  have hrefused := Kind.refused_of_fault hk hchange.symm
  refine ⟨hrefused.descriptor, fun e he => absurd he (hrefused.unreported e), fun hfailed => ?_⟩
  rw [hfailed] at hbegun
  cases hbegun

/-- **Expansions are atomic.**  Whatever the parameters, the element and the descriptor are, an
expansion by a kind that is always there that ends in a fault leaves the descriptor exactly as it
was.  If the fault is a report, the report has what the checks found, the parameters, the values
and the slots are still those of the new invocation, and the expansion has failed; an expansion
fails in no other way. -/
theorem expand_atomic (hk : k ∈ Kind.builtins) (h : ((new k p).expand t d).fault = some f) :
    Atomic (new k p) d f ((new k p).expand t d) := by
  obtain ⟨mask, hmask⟩ := Kind.exists_mask hk
  have hshown := Kind.shown_builtins hk
  by_cases hq : ∀ c ∈ k.checks, Quiet (c.complaints ⟨k.name, some p, some t⟩)
  · rw [expand_new hmask hshown hq (Kind.steady_builtins hk _)] at h ⊢
    cases hfound : findings k mask p t with
    | nil =>
      simp only [hfound] at h
      exact atomic_bindAndExpand hk rfl h _
    | cons c cs =>
      simp only [hfound, Option.some.injEq] at h
      subst h
      refine ⟨rfl, ?_, fun _ => ⟨_, rfl⟩⟩
      rintro e ⟨⟩
      exact ⟨findings?_failure .., ⟨rfl, rfl, rfl⟩, rfl⟩
  · -- a complaint that cannot be worded ends the checks without a verdict
    obtain ⟨i, g, hexpand, hstage, c, hc, hmem⟩ := expand_not_quiet (d := d) hmask hshown hq
    rw [hexpand] at h ⊢
    cases h
    refine ⟨rfl, ?_, fun hfailed => absurd hfailed hstage⟩
    rintro e rfl
    exact absurd hmem (Kind.unreported_builtins hk hc _ e)

/-- Two names are reported.  A list of names passes the checks, and is refused by the change. -/
theorem expand_atomic_tableNames :
    let d : Descriptor := { className := "User", table := some "people" }
    let two := new Kind.table ⟨[.text "users", .text "members"], .empty⟩
    let listed := new Kind.table ⟨[.list [.text "users", .text "members"]], .empty⟩
    (∃ e, Atomic two d (.reported e) (two.expand (limitTarget .ofClass) d)
        ∧ Withdrawn two (two.expand (limitTarget .ofClass) d).invocation e)
      ∧ ∃ u, Atomic listed d (.unfit u) (listed.expand (limitTarget .ofClass) d)
        ∧ (listed.expand (limitTarget .ofClass) d).invocation.stage = .bound := by
  intro d two listed
  have htable : Kind.table ∈ Kind.builtins := by simp [Kind.builtins]
  obtain ⟨e, he⟩ : ∃ e, (two.expand (limitTarget .ofClass) d).fault = some (.reported e) :=
    ⟨_, rfl⟩
  obtain ⟨u, hu⟩ : ∃ u, (listed.expand (limitTarget .ofClass) d).fault = some (.unfit u) :=
    ⟨_, rfl⟩
  have hatomic := expand_atomic htable he
  exact ⟨⟨e, hatomic, hatomic.report e rfl⟩, u, expand_atomic htable hu, rfl⟩

end Invocation

end DocDirective
