import DocDirective.Proofs.Invocation.Atomicity

/-!
# Proofs — Invocation — Batch

The errors that one report puts together.  Rules and conversions note what is not there yet, and so
never say a thing twice; a look appends what it says as it is.  The kinds that are always there word
their looks so that this makes no difference (`Kind.worded_builtins`): the errors of a report are
distinct, and those about keys name every key that is not declared once (`reports_once`), although
a check and the conversion both see it.
-/

namespace DocDirective

namespace Check

variable {s : Subject} {es : List String} {m : String}

/-- What rules add starts with the words of one of them. -/
theorem opens_of_mem_noted_rules {rules : List Rule} (h : m ∈ noted s es (rules.map .rule)) :
    m ∈ es ∨ ∃ r ∈ rules, Opens (r.opening s.kind) m := by
  refine (mem_noted.1 h).imp_right ?_
  rintro ⟨c, hc, hm⟩
  obtain ⟨r, hr, rfl⟩ := List.mem_map.1 hc
  obtain ⟨words, hwords, hopens⟩ := (Rule.opened s r).opens hm
  obtain rfl := List.mem_singleton.1 hwords
  exact ⟨r, hr, hopens⟩

end Check

namespace Invocation

variable {k : Kind} {mask : Mask} {p : Parameters} {t : Target} {d : Descriptor} {m : String}

/-! ### What is found -/

theorem mem_findings : m ∈ findings k mask p t ↔ m ∈ placeTexts k mask t
    ∨ (∃ c ∈ k.checks, m ∈ texts (c.complaints ⟨k.name, some p, some t⟩))
    ∨ ∃ e ∈ p.keyed.entries, conversionText? k.fields e = some m := by
  rw [findings, mem_foldl_note, Check.mem_noted, List.mem_filterMap, or_assoc]

theorem opens_of_mem_placeTexts (h : m ∈ placeTexts k mask t) :
    Opens (Kind.misplacedOpening k.name) m := by
  unfold placeTexts at h
  split at h
  · cases h
  · obtain rfl := List.mem_singleton.1 h
    exact Kind.opens_misplacedMessage _ _

theorem nodup_placeTexts : (placeTexts k mask t).Nodup := by
  unfold placeTexts
  split
  · exact List.nodup_nil
  · exact List.nodup_singleton _

/-- Where a kind words its checks so that they can be told apart, what is found is distinct. -/
theorem nodup_findings (h : k.Worded ⟨k.name, some p, some t⟩) : (findings k mask p t).Nodup := by
  refine nodup_foldl_note ?_ _
  cases h with
  | rules rules hchecks _ =>
    rw [hchecks]
    exact Check.nodup_noted_rules _ nodup_placeTexts rules
  | @look before after openings look hchecks _ hapart hlook =>
    rw [hchecks]
    refine Check.nodup_noted_look nodup_placeTexts hlook.nodup ?_
    intro m hm hlooks
    obtain ⟨words, hwords, hopens⟩ := hlook.opened.opens hlooks
    obtain ⟨hplaceApart, -, hrules⟩ := hapart words hwords
    -- whatever was said in front of the look starts apart from what it says itself
    obtain hplace | ⟨r, hr, hrule⟩ := Check.opens_of_mem_noted_rules hm
    · exact hplaceApart.not_opens (opens_of_mem_placeTexts hplace) hopens
    · exact (hrules r hr).not_opens hrule hopens

/-! ### Errors about keys -/

/-- What is said of a keyed value is that its key is not declared, or it starts differently. -/
theorem key_of_conversionText? {fields : Keyed Field} {e : String × Value}
    (h : conversionText? fields e = some m) (hopens : Opens Rule.unknownOpening m) :
    e.1 ∉ fields.keys ∧ m = Rule.unknownKey e.1 := by
  unfold conversionText? at h
  split at h
  · rename_i hnone
    cases h
    exact ⟨Keyed.get?_eq_none_iff.1 hnone, rfl⟩
  · split at h
    · cases h
    · obtain ⟨u, -, rfl⟩ := Option.map_eq_some_iff.1 h
      have hapart : Apart Rule.unknownOpening "The \"" := by decide
      have hstart : Opens "The \"" s!"The \"{e.1}\" parameter {u.message}." :=
        ((((Opens.refl _).append _).append _).append _).append _
      exact absurd hstart (hapart.not_opens hopens)

/-- The keys that conversions complain of are those that are not declared. -/
theorem exists_conversionText?_iff {fields : Keyed Field} {es : List (String × Value)}
    {key : String} : (∃ e ∈ es, conversionText? fields e = some (Rule.unknownKey key))
      ↔ key ∈ es.map (·.1) ∧ key ∉ fields.keys := by
  constructor
  · rintro ⟨e, he, hsays⟩
    obtain ⟨hnot, heq⟩ := key_of_conversionText? hsays (Rule.opens_unknownKey key)
    obtain rfl := Rule.unknownKey_injective heq
    exact ⟨List.mem_map.2 ⟨e, he, rfl⟩, hnot⟩
  · rintro ⟨hin, hnot⟩
    obtain ⟨e, he, rfl⟩ := List.mem_map.1 hin
    have hnone : fields.get? e.1 = none := Keyed.get?_eq_none_iff.2 hnot
    refine ⟨e, he, ?_⟩
    rw [conversionText?, hnone]

/-- What a rule that minds keys says of a key is that it is not declared. -/
theorem key_of_rule {r : Rule} (hr : k.MindsKeys r)
    (hm : m ∈ texts (r.complaints ⟨k.name, some p, some t⟩))
    (hopens : Opens Rule.unknownOpening m) :
    ∃ key ∈ p.keyed.keys, key ∉ k.fields.keys ∧ m = Rule.unknownKey key := by
  have hother (h : Apart Rule.unknownOpening (r.opening k.name)) : False := by
    obtain ⟨words, hwords, hopens'⟩ := (Rule.opened _ r).opens hm
    obtain rfl := List.mem_singleton.1 hwords
    exact h.not_opens hopens hopens'
  cases r with
  | acceptedKeys keys =>
    have hkeys : keys.map Text.lowered = k.fields.keys := hr
    exact hkeys ▸ Rule.mem_texts_keyComplaints.1 hm
  | acceptsNoKeyedValues =>
    have hkeys : k.fields.keys = [] := hr
    exact hkeys ▸ Rule.mem_texts_keyComplaints.1 hm
  | _ => exact (hother hr).elim

/-- What the checks of a kind say of a key is that it is not declared. -/
theorem key_of_check {c : Check} (h : k.Worded ⟨k.name, some p, some t⟩) (hc : c ∈ k.checks)
    (hm : m ∈ texts (c.complaints ⟨k.name, some p, some t⟩))
    (hopens : Opens Rule.unknownOpening m) :
    ∃ key ∈ p.keyed.keys, key ∉ k.fields.keys ∧ m = Rule.unknownKey key := by
  cases h with
  | rules rules hchecks hkeys =>
    rw [hchecks] at hc
    obtain ⟨r, hr, rfl⟩ := List.mem_map.1 hc
    exact key_of_rule (hkeys r hr) hm hopens
  | look before after openings hchecks hkeys hapart hlook =>
    rw [hchecks, List.mem_append, List.mem_cons] at hc
    obtain hc | rfl | hc := hc
    · obtain ⟨r, hr, rfl⟩ := List.mem_map.1 hc
      exact key_of_rule (hkeys r (List.mem_append_left _ hr)) hm hopens
    · obtain ⟨words, hwords, hopens'⟩ := hlook.opened.opens hm
      exact absurd hopens' ((hapart words hwords).2.1.not_opens hopens)
    · obtain ⟨r, hr, rfl⟩ := List.mem_map.1 hc
      exact key_of_rule (hkeys r (List.mem_append_right _ hr)) hm hopens

theorem key_of_findings (h : k.Worded ⟨k.name, some p, some t⟩)
    (hplace : Apart (Kind.misplacedOpening k.name) Rule.unknownOpening)
    (hm : m ∈ findings k mask p t) (hopens : Opens Rule.unknownOpening m) :
    ∃ key ∈ p.keyed.keys, key ∉ k.fields.keys ∧ m = Rule.unknownKey key := by
  obtain hm | ⟨c, hc, hm⟩ | ⟨e, he, hm⟩ := mem_findings.1 hm
  · exact absurd hopens (hplace.not_opens (opens_of_mem_placeTexts hm))
  · exact key_of_check h hc hm hopens
  · obtain ⟨hkey, rfl⟩ := key_of_conversionText? hm hopens
    exact ⟨e.1, List.mem_map.2 ⟨e, he, rfl⟩, hkey, rfl⟩

/-- The keys that are complained of are those that are not declared. -/
theorem unknownKey_mem_findings_iff (h : k.Worded ⟨k.name, some p, some t⟩)
    (hplace : Apart (Kind.misplacedOpening k.name) Rule.unknownOpening) {key : String} :
    Rule.unknownKey key ∈ findings k mask p t ↔ key ∈ p.keyed.keys ∧ key ∉ k.fields.keys := by
  constructor
  · intro hm
    obtain ⟨key', hin, hnot, heq⟩ := key_of_findings h hplace hm (Rule.opens_unknownKey key)
    obtain rfl := Rule.unknownKey_injective heq
    exact ⟨hin, hnot⟩
  · rintro ⟨hin, hnot⟩
    exact mem_findings.2 (.inr (.inr (exists_conversionText?_iff.2 ⟨hin, hnot⟩)))

/-! ### Reports -/

/-- What a kind that is always there reports is all that was found. -/
theorem exists_findings_of_reported (hk : k ∈ Kind.builtins) {e : AnnotationError}
    (h : ((new k p).expand t d).fault = some (.reported e)) :
    ∃ mask, e = failure k t (findings k mask p t) (!mask.contains t.kind) := by
  obtain ⟨mask, hmask⟩ := Kind.exists_mask hk
  have hshown := Kind.shown_builtins hk
  refine ⟨mask, ?_⟩
  by_cases hq : ∀ c ∈ k.checks, Quiet (c.complaints ⟨k.name, some p, some t⟩)
  · rw [expand_new hmask hshown hq (Kind.steady_builtins hk _)] at h
    cases hfound : findings k mask p t with
    | nil =>
      -- with nothing found, a fault would be one of the kind's own change
      simp only [hfound] at h
      obtain ⟨-, -, -, hchange⟩ := bindAndExpand_eq
        { new k p with target := some t, stage := .typeChecked } p t (bindings k p) d
      rw [h] at hchange
      exact absurd rfl ((Kind.refused_of_fault hk hchange.symm).unreported e)
    | cons c cs =>
      simp only [hfound] at h
      cases h
      rfl
  · obtain ⟨i, g, hexpand, -, c, hc, hmem⟩ := expand_not_quiet (d := d) hmask hshown hq
    rw [hexpand] at h
    cases h
    exact absurd hmem (Kind.unreported_builtins hk hc _ e)

theorem findings?_failure_eq (k : Kind) (t : Target) (errors : List String) (misplaced : Bool) :
    ∃ f, (failure k t errors misplaced).cause.findings? = some f ∧ f.errors = errors := by
  cases misplaced <;> exact ⟨_, rfl, rfl⟩

/-- **A report says nothing twice, and names every key that is not declared once.**  Whatever the
parameters, the element and the descriptor are, what an expansion by a kind that is always there
reports is what its checks found.  The errors are distinct; each key that is there and not declared
is named by one of them, no other key is, and no error says anything else about keys. -/
theorem reports_once (hk : k ∈ Kind.builtins) {e : AnnotationError}
    (h : ((new k p).expand t d).fault = some (.reported e)) :
    ∃ f, e.cause.findings? = some f ∧ f.errors.Nodup
      ∧ (∀ key, f.errors.count (Rule.unknownKey key)
        = if key ∈ p.keyed.keys ∧ key ∉ k.fields.keys then 1 else 0)
      ∧ ∀ m ∈ f.errors, Opens Rule.unknownOpening m →
        ∃ key ∈ p.keyed.keys, key ∉ k.fields.keys ∧ m = Rule.unknownKey key := by
  obtain ⟨mask, rfl⟩ := exists_findings_of_reported hk h
  obtain ⟨f, hf, hfound⟩ := findings?_failure_eq k t (findings k mask p t) (!mask.contains t.kind)
  have hworded : k.Worded ⟨k.name, some p, some t⟩ := Kind.worded_builtins hk
  have hplace : Apart (Kind.misplacedOpening k.name) Rule.unknownOpening :=
    Kind.apart_misplaced k hk
  have hnodup : (findings k mask p t).Nodup := nodup_findings hworded
  refine ⟨f, hf, hfound ▸ hnodup, fun key => ?_, fun m hm hopens => ?_⟩
  · rw [hfound, List.Nodup.count hnodup]
    exact if_congr (unknownKey_mem_findings_iff hworded hplace) rfl rfl
  · rw [hfound] at hm
    exact key_of_findings hworded hplace hm hopens

/-- A column on a class, with two types, a key that is not declared and a value that does not fit:
the report has every error once, and names the one key. -/
theorem reports_once_column :
    let i := new Kind.column ⟨[.text "integer", .text "text"],
      .ofList [("colour", .text "red"), ("nullable", .text "maybe")]⟩
    ∃ e f, (i.expand (limitTarget .ofClass) { className := "User" }).fault = some (.reported e)
      ∧ e.cause.findings? = some f ∧ f.errors.Nodup ∧ f.errors.length = 4
      ∧ f.errors.count (Rule.unknownKey "colour") = 1
      ∧ f.errors.count (Rule.unknownKey "nullable") = 0 := by
  intro i
  obtain ⟨f, hf, hnodup, hcount, -⟩ := reports_once (by simp [Kind.builtins])
    (rfl : (i.expand (limitTarget .ofClass) { className := "User" }).fault = some (.reported _))
  cases hf
  exact ⟨_, _, rfl, rfl, hnodup, rfl, hcount "colour", hcount "nullable"⟩

end Invocation

end DocDirective
