import DocDirective.Proofs.Invocation.Lifecycle

/-!
# Proofs — Invocation — Rechecking

Rules that are applied to an invocation one after another, by hand and in any number.  What a rule
complains about depends on the parameters and the element, which no rule touches; so a row of rules
leaves the complaints that were there, and behind them its own, each the first time it comes up
(`checkAll_of_quiet`).  Applied again the row adds nothing, and in another order it leaves the same
complaints (`checkAll_settles`).
-/

namespace DocDirective

theorem mem_ruleTexts_perm {s : Subject} {rules others : List Rule} (h : others.Perm rules)
    {m : String} : m ∈ ruleTexts s others ↔ m ∈ ruleTexts s rules := by
  simp only [ruleTexts, List.mem_flatMap, h.mem_iff]

namespace Invocation

/-! ### A row of rules -/

/-- Applies rules one after another, up to one that ends in a fault. -/
def checkAll (i : Invocation) : List Rule → Invocation × Option Fault
  | []         => (i, none)
  | r :: rules =>
    match i.check r with
    | (j, none)   => j.checkAll rules
    | (j, some f) => (j, some f)

/-- Nothing but the complaints changes, so that every rule looks at what the first one did. -/
theorem checkAll_eq (i : Invocation) (rules : List Rule) :
    i.checkAll rules
      = ({ i with errors := (Check.runAll i.subject i.errors (rules.map .rule)).1 },
        (Check.runAll i.subject i.errors (rules.map .rule)).2) := by
  induction rules generalizing i with
  | nil => rfl
  | cons r rules ih =>
    rw [checkAll, check, List.map_cons, Check.runAll]
    rcases Check.run i.subject i.errors (.rule r) with ⟨errors, _ | f⟩
    · exact ih { i with errors := errors }
    · rfl

/-- The rules of a row can word all their complaints. -/
def Worded (s : Subject) (rules : List Rule) : Prop := ∀ r ∈ rules, Quiet (r.complaints s)

theorem worded_of_checkAll {i j : Invocation} {rules : List Rule}
    (h : i.checkAll rules = (j, none)) : Worded i.subject rules := by
  rw [checkAll_eq] at h
  intro r hr
  exact Check.quiet_of_runAll (congrArg Prod.snd h) (.rule r) (List.mem_map_of_mem hr)

/-- **Rules that can word their complaints add those that are not there yet, in order.** -/
theorem checkAll_of_quiet {i : Invocation} {rules : List Rule} (h : Worded i.subject rules) :
    i.checkAll rules
      = ({ i with errors := (ruleTexts i.subject rules).foldl note i.errors }, none) := by
  have hq : ∀ c ∈ rules.map Check.rule, Quiet (c.complaints i.subject) := by
    intro c hc
    obtain ⟨r, hr, rfl⟩ := List.mem_map.1 hc
    exact h r hr
  rw [checkAll_eq, Check.runAll_eq hq, Check.noted_eq_foldl]

/-! ### The same row again, and in another order -/

/-- **A row of rules that ends without a fault settles the complaints.**  It leaves the parameters,
the element, the state and everything else but the complaints as they are, and those that were
there stand in front.  Applied again it adds nothing; in any other order it ends without a fault as
well and leaves the same complaints; and it makes no repetitions where there are none. -/
theorem checkAll_settles {i j : Invocation} {rules : List Rule}
    (h : i.checkAll rules = (j, none)) :
    j = { i with errors := j.errors } ∧ i.errors <+: j.errors
      ∧ j.checkAll rules = (j, none)
      ∧ (∀ others, others.Perm rules → ∃ k, i.checkAll others = (k, none)
        ∧ k = { i with errors := k.errors } ∧ ∀ m, m ∈ k.errors ↔ m ∈ j.errors)
      ∧ (i.errors.Nodup → j.errors.Nodup) := by
  have hworded := worded_of_checkAll h
  have hj : { i with errors := (ruleTexts i.subject rules).foldl note i.errors } = j :=
    congrArg Prod.fst ((checkAll_of_quiet hworded).symm.trans h)
  have hsubject : j.subject = i.subject := by
    rw [← hj]
    rfl
  have herrors : j.errors = (ruleTexts i.subject rules).foldl note i.errors := by rw [← hj]
  refine ⟨by rw [herrors, hj], ?_, ?_, ?_, ?_⟩
  · rw [herrors]
    exact prefix_foldl_note _ _
  · -- every complaint of the row is there already
    have hthere : ruleTexts i.subject rules ⊆ j.errors := by
      intro m hm
      rw [herrors]
      exact mem_foldl_note.2 (.inr hm)
    have hworded' : Worded j.subject rules := hsubject ▸ hworded
    rw [checkAll_of_quiet hworded', hsubject, foldl_note_of_subset hthere]
  · intro others hperm
    have hothers : Worded i.subject others := by
      intro r hr
      exact hworded r (hperm.mem_iff.1 hr)
    refine ⟨_, checkAll_of_quiet hothers, rfl, ?_⟩
    intro m
    rw [herrors, mem_foldl_note, mem_foldl_note, mem_ruleTexts_perm hperm]
  · intro hnodup
    rw [herrors]
    exact nodup_foldl_note hnodup _

/-- Two rules that turn down the same key, around one that counts. -/
def strayKeyRules : List Rule := [.acceptsNoKeyedValues, .exactCount 1, .acceptedKeys ["as"]]

/-- The complaint about a key that two rules turn down is noted once, and stays so. -/
theorem checkAll_settles_strayKey :
    let i := new Kind.table ⟨[.text "users"], .ofList [("if", .bool true)]⟩
    ∃ j, i.checkAll strayKeyRules = (j, none)
      ∧ j.errors = ["Invalid parameter: \"if\".", "TableAnnotation requires exactly 1 parameters."]
      ∧ j.checkAll strayKeyRules = (j, none)
      ∧ ∃ k, i.checkAll strayKeyRules.reverse = (k, none) ∧ ∀ m, m ∈ k.errors ↔ m ∈ j.errors := by
  intro i
  obtain ⟨j, hj, herrors⟩ : ∃ j, i.checkAll strayKeyRules = (j, none)
      ∧ j.errors
        = ["Invalid parameter: \"if\".", "TableAnnotation requires exactly 1 parameters."] :=
    ⟨_, rfl, rfl⟩
  obtain ⟨-, -, hagain, hperm, -⟩ := checkAll_settles hj
  obtain ⟨k, hk, -, hmem⟩ := hperm strayKeyRules.reverse (List.reverse_perm _)
  exact ⟨j, hj, herrors, hagain, k, hk, hmem⟩

end Invocation

end DocDirective
