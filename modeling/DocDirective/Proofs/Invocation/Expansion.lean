import DocDirective.Processor
import DocDirective.Proofs.Invocation.Checks
import Mathlib.Data.List.Nodup

/-!
# Proofs — Invocation — Expansion

The expansion of an invocation.  The kind's own change of the descriptor is reached exactly where
the element, the checks and the conversions have nothing against it; otherwise everything they have
to say is in one report.

The checks only collect: each stage of an expansion adds its complaints to those before it, so an
expansion goes on exactly where the row of all complaints is empty (`expand_new`).  Where a kind
checks by rules alone, that row is spelled out and the expansion is exact (`expand_exact`).
-/

namespace DocDirective.Invocation

variable {k : Kind} {mask : Mask} {rules : List Rule} {p : Parameters} {t : Target}
  {d : Descriptor}

/-- The complaint about the element, if the kind does not apply to it. -/
def placeTexts (k : Kind) (mask : Mask) (t : Target) : List String :=
  if mask.contains t.kind then [] else [misplacedMessage k.name mask]

theorem placeTexts_eq_nil_iff : placeTexts k mask t = [] ↔ mask.contains t.kind = true := by
  unfold placeTexts
  split <;> simp_all

/-- Everything the checks have to say, in order: about the element, check by check, and key by
key. -/
def findings (k : Kind) (mask : Mask) (p : Parameters) (t : Target) : List String :=
  (p.keyed.entries.filterMap (conversionText? k.fields)).foldl note
    (Check.noted ⟨k.name, some p, some t⟩ (placeTexts k mask t) k.checks)

/-- Nothing is found exactly where the kind applies, no check complains, and every keyed value is
declared and can be converted. -/
theorem findings_eq_nil_iff
    (hq : ∀ c ∈ k.checks, Quiet (c.complaints ⟨k.name, some p, some t⟩))
    (hsteady : Steady k.fields p.keyed.entries) :
    findings k mask p t = [] ↔ mask.contains t.kind = true
      ∧ (∀ c ∈ k.checks, c.complaints ⟨k.name, some p, some t⟩ = [])
      ∧ ∀ e ∈ p.keyed.entries, Declared k.fields e := by
  rw [findings, Check.foldl_eq_nil_iff note_ne_nil, Check.noted_eq_nil_iff hq,
    placeTexts_eq_nil_iff, conversionTexts_eq_nil_iff hsteady, and_assoc]

/-! ### The stages of an expansion -/

/-- The invocation that the checks of an expansion start with. -/
def started (i : Invocation) (mask : Mask) (t : Target) : Invocation :=
  if mask.contains t.kind then { i with stage := .typeChecked }
  else { i with errors := note i.errors (misplacedMessage i.kind.name mask) }

theorem checkAndExpand_eq (i : Invocation) (mask : Mask) (t : Target) (d : Descriptor) :
    i.checkAndExpand mask t d =
      match Check.runAll i.subject (i.started mask t).errors i.kind.checks with
      | (errors, some f) => ⟨{ i.started mask t with errors := errors }, d, some f⟩
      | (errors, none)   =>
        match i.parameters with
        | none   => ⟨{ i.started mask t with errors := errors }, d,
          some (.alreadyBound i.kind.name)⟩
        | some p =>
          match convert i.kind.fields p.keyed.entries errors .empty with
          | (errors, _, some f)    => ⟨{ i.started mask t with errors := errors }, d, some f⟩
          | ([], converted, none)  =>
            bindAndExpand { i.started mask t with errors := [] } p t converted d
          | (e :: errors, _, none) =>
            ⟨{ i.started mask t with errors := e :: errors, stage := .failed }, d,
              some (.reported (failure i.kind t (e :: errors) (!mask.contains t.kind)))⟩ := by
  unfold checkAndExpand started
  cases hin : mask.contains t.kind <;> rfl

/-- A new invocation has its parameters, unless a slot stands in front of them. -/
theorem new_eq (hshown : k.hidesParameters = false) :
    new k p = { kind := k, parameters := some p, slots := defaults k.fields } := by
  simp only [new, hshown, Bool.false_eq_true, if_false]

theorem parameters_new (hshown : k.hidesParameters = false) : (new k p).parameters = some p := by
  rw [new_eq hshown]

theorem eq_of_parameters_new {q : Parameters} (h : (new k p).parameters = some q) : p = q := by
  unfold new at h
  split at h
  · cases h
  · exact Option.some.inj h

theorem subject_new (hshown : k.hidesParameters = false) :
    ((new k p).retarget t).subject = ⟨k.name, some p, some t⟩ := by
  rw [new_eq hshown]
  rfl

theorem errors_started_new :
    (((new k p).retarget t).started mask t).errors = placeTexts k mask t := by
  unfold started placeTexts
  split <;> rfl

/-- The stages in the expansion of a new invocation. -/
theorem expand_new_eq (hmask : k.mask = some mask) (hshown : k.hidesParameters = false) :
    (new k p).expand t d =
      match Check.runAll ⟨k.name, some p, some t⟩ (placeTexts k mask t) k.checks with
      | (errors, some f) =>
        ⟨{ ((new k p).retarget t).started mask t with errors := errors }, d, some f⟩
      | (errors, none)   =>
        match convert k.fields p.keyed.entries errors .empty with
        | (errors, _, some f)    =>
          ⟨{ ((new k p).retarget t).started mask t with errors := errors }, d, some f⟩
        | ([], converted, none)  =>
          bindAndExpand { ((new k p).retarget t).started mask t with errors := [] } p t converted d
        | (e :: errors, _, none) =>
          ⟨{ ((new k p).retarget t).started mask t with errors := e :: errors, stage := .failed }, d,
            some (.reported (failure k t (e :: errors) (!mask.contains t.kind)))⟩ := by
  have hexpand : (new k p).expand t d = ((new k p).retarget t).checkAndExpand mask t d := by
    simp only [expand, new, hmask, if_true]
  have hkind : ((new k p).retarget t).kind = k := rfl
  have hparameters : ((new k p).retarget t).parameters = some p := parameters_new hshown
  rw [hexpand, checkAndExpand_eq]
  simp only [hkind, hparameters, subject_new hshown, errors_started_new]

/-- The values that are bound, by slot. -/
def bindings (k : Kind) (p : Parameters) : Keyed Value :=
  Keyed.empty.insertAll (p.keyed.entries.filterMap (converted? k.fields))

/-- A fresh invocation whose checks have found something. -/
def rejected (k : Kind) (p : Parameters) (t : Target) (errors : List String) : Invocation :=
  { new k p with target := some t, errors := errors, stage := .failed }

/-- An expansion binds and expands where nothing is found, and reports all of it otherwise. -/
theorem expand_new (hmask : k.mask = some mask) (hshown : k.hidesParameters = false)
    (hq : ∀ c ∈ k.checks, Quiet (c.complaints ⟨k.name, some p, some t⟩))
    (hsteady : Steady k.fields p.keyed.entries) :
    (new k p).expand t d = match findings k mask p t with
      | []      => bindAndExpand
          { new k p with target := some t, stage := .typeChecked } p t (bindings k p) d
      | e :: es => ⟨rejected k p t (e :: es), d,
          some (.reported (failure k t (e :: es) (!mask.contains t.kind)))⟩ := by
  have hconvert : convert k.fields p.keyed.entries
      (Check.noted ⟨k.name, some p, some t⟩ (placeTexts k mask t) k.checks) .empty
        = (findings k mask p t, bindings k p, none) := convert_eq hsteady ..
  rw [expand_new_eq hmask hshown]
  simp only [Check.runAll_eq hq, hconvert]
  cases hf : findings k mask p t with
  | nil =>
    have hin := ((findings_eq_nil_iff hq hsteady).1 hf).1
    simp only [started, hin, if_true]
    rfl
  | cons e es =>
    cases hin : mask.contains t.kind <;> simp only [started, retarget, hin] <;> rfl

/-- Where a complaint cannot be worded, an expansion ends with its fault before it comes to a
verdict, and the descriptor stays as it is. -/
theorem expand_not_quiet (hmask : k.mask = some mask) (hshown : k.hidesParameters = false)
    (h : ¬∀ c ∈ k.checks, Quiet (c.complaints ⟨k.name, some p, some t⟩)) :
    ∃ i f, (new k p).expand t d = ⟨i, d, some f⟩ ∧ i.stage ≠ .failed
      ∧ ∃ c ∈ k.checks, .error f ∈ c.complaints ⟨k.name, some p, some t⟩ := by
  have hstage : (((new k p).retarget t).started mask t).stage ≠ .failed := by
    unfold started
    split <;> nofun
  rw [expand_new_eq hmask hshown]
  cases hrun : Check.runAll ⟨k.name, some p, some t⟩ (placeTexts k mask t) k.checks with
  | mk es f? =>
    cases f? with
    | some f => exact ⟨_, f, rfl, hstage, Check.exists_of_runAll (congrArg Prod.snd hrun)⟩
    | none => exact absurd (Check.quiet_of_runAll (congrArg Prod.snd hrun)) h

/-- Where a conversion breaks down, an expansion ends with its fault.  Nothing has been done by then
but the checks. -/
theorem expand_not_steady (hmask : k.mask = some mask) (hshown : k.hidesParameters = false)
    (hq : ∀ c ∈ k.checks, Quiet (c.complaints ⟨k.name, some p, some t⟩)) {f : Fault}
    (hf : p.keyed.entries.findSome? (breakdown? k.fields) = some f) :
    ∃ es, (new k p).expand t d = ⟨{ new k p with
      target := some t
      errors := es
      stage  := if mask.contains t.kind then .typeChecked else .parsed }, d, some f⟩ := by
  have hfault := fault_convert k.fields p.keyed.entries
    (Check.noted ⟨k.name, some p, some t⟩ (placeTexts k mask t) k.checks) .empty
  rw [expand_new_eq hmask hshown]
  simp only [Check.runAll_eq hq]
  generalize convert k.fields p.keyed.entries
    (Check.noted ⟨k.name, some p, some t⟩ (placeTexts k mask t) k.checks) .empty = c at hfault ⊢
  obtain ⟨es, converted, f?⟩ := c
  obtain rfl : f? = some f := hfault.trans hf
  refine ⟨es, ?_⟩
  cases hin : mask.contains t.kind <;> simp only [started, retarget, hin] <;> rfl

/-! ### Kinds that check by rules alone -/

/-- The kind applies to the element, its rules hold, and each keyed value is declared and can be
converted. -/
structure Accepts (k : Kind) (mask : Mask) (rules : List Rule) (p : Parameters) (t : Target) :
    Prop where
  applies  : mask.contains t.kind = true
  rules    : ∀ r ∈ rules, r.Holds p t
  declared : ∀ e ∈ p.keyed.entries, Declared k.fields e

/-- What rules have to say: about the element, then rule by rule, then key by key, each complaint
once. -/
def found (k : Kind) (mask : Mask) (rules : List Rule) (p : Parameters) (t : Target) :
    List String :=
  ((if mask.contains t.kind then [] else [misplacedMessage k.name mask])
    ++ ruleTexts ⟨k.name, some p, some t⟩ rules
    ++ p.keyed.entries.filterMap (conversionText? k.fields)).eraseDups

theorem findings_of_rules (hchecks : k.checks = rules.map .rule) :
    findings k mask p t = found k mask rules p t := by
  have hplace : placeTexts k mask t = (placeTexts k mask t).eraseDups := by
    unfold placeTexts
    split <;> simp [List.eraseDups_cons]
  rw [findings, hchecks, hplace, Check.noted_rules, foldl_note]
  rfl

/-- Rules find nothing exactly where the parameters are accepted. -/
theorem found_eq_nil_iff (hchecks : k.checks = rules.map .rule)
    (hq : ∀ r ∈ rules, Quiet (r.complaints ⟨k.name, some p, some t⟩))
    (hsteady : Steady k.fields p.keyed.entries) :
    found k mask rules p t = [] ↔ Accepts k mask rules p t := by
  have hall (P : Check → Prop) : (∀ c ∈ k.checks, P c) ↔ ∀ r ∈ rules, P (.rule r) := by
    rw [hchecks, List.forall_mem_map]
  have hrules : (∀ c ∈ k.checks, c.complaints ⟨k.name, some p, some t⟩ = [])
      ↔ ∀ r ∈ rules, r.Holds p t := by
    rw [hall]
    exact forall₂_congr fun r hr => Rule.complaints_eq_nil_iff (hq r hr)
  rw [← findings_of_rules hchecks, findings_eq_nil_iff ((hall _).2 hq) hsteady, hrules]
  exact ⟨fun ⟨ha, hr, hd⟩ => ⟨ha, hr, hd⟩, fun ⟨ha, hr, hd⟩ => ⟨ha, hr, hd⟩⟩

/-! ### Slots -/

/-- What the slot of a key holds: what the value under the key is converted to if there is one, and
the default otherwise. -/
def filled (f : Field) (v? : Option Value) : Option Value :=
  match v? with
  | some v => (f.convert.apply v).toOption
  | none   => some f.default

theorem key_of_slot {fields : Keyed Field} (hslots : (fields.values.map (·.slot)).Nodup)
    {key key' : String} {f f' : Field} (hf : fields.get? key = some f)
    (hf' : fields.get? key' = some f') (hs : f.slot = f'.slot) : key = key' := by
  have hn : (fields.entries.map fun e => e.2.slot).Nodup := by
    rw [Keyed.values, List.map_map] at hslots
    exact hslots
  have he := List.inj_on_of_nodup_map hn (Keyed.get?_eq_some_iff.1 hf)
    (Keyed.get?_eq_some_iff.1 hf') hs
  exact congrArg Prod.fst he

theorem mem_converted_iff {fields : Keyed Field} {es : List (String × Value)}
    {slot : String} {w : Value} :
    (slot, w) ∈ es.filterMap (converted? fields)
      ↔ ∃ e ∈ es, ∃ f, fields.get? e.1 = some f ∧ f.convert.apply e.2 = .ok w ∧ f.slot = slot := by
  rw [List.mem_filterMap]
  refine exists_congr fun e => and_congr_right fun _ => ?_
  unfold converted?
  cases fields.get? e.1 with
  | none => simp
  | some f => cases hv : f.convert.apply e.2 <;> simp [hv, Except.toOption, and_comm]

/-- Values under distinct keys go to distinct slots. -/
theorem nodup_converted {fields : Keyed Field} (hslots : (fields.values.map (·.slot)).Nodup)
    {es : List (String × Value)} (hn : (es.map (·.1)).Nodup) :
    ((es.filterMap (converted? fields)).map (·.1)).Nodup := by
  induction es with
  | nil => exact List.nodup_nil
  | cons e es ih =>
    rw [List.map_cons, List.nodup_cons] at hn
    cases hc : converted? fields e with
    | none =>
      rw [List.filterMap_cons_none hc]
      exact ih hn.2
    | some b =>
      obtain ⟨slot, w⟩ := b
      rw [List.filterMap_cons_some hc, List.map_cons, List.nodup_cons]
      refine ⟨fun hm => hn.1 ?_, ih hn.2⟩
      -- another entry for the slot would be one for the key
      obtain ⟨⟨slot', w'⟩, hb', hslot⟩ := List.mem_map.1 hm
      obtain ⟨e', he', f', hf', -, hs'⟩ := mem_converted_iff.1 hb'
      have hb : (slot, w) ∈ [e].filterMap (converted? fields) := by
        rw [List.filterMap_cons_some hc]
        exact List.mem_cons_self
      obtain ⟨e₀, he₀, f, hf, -, hs⟩ := mem_converted_iff.1 hb
      obtain rfl := List.mem_singleton.1 he₀
      have hkey := key_of_slot hslots hf' hf (hs'.trans (hslot.trans hs.symm))
      exact List.mem_map.2 ⟨e', he', hkey⟩

theorem entries_bindings (hslots : (k.fields.values.map (·.slot)).Nodup) :
    (bindings k p).entries = p.keyed.entries.filterMap (converted? k.fields) :=
  Keyed.entries_insertAll (t := .empty) (nodup_converted hslots p.keyed.nodup)

theorem defaults_get? {fields : Keyed Field} (hslots : (fields.values.map (·.slot)).Nodup)
    {key : String} {f : Field} (hf : fields.get? key = some f) :
    (defaults fields).get? f.slot = some f.default := by
  have hmem : (f.slot, f.default) ∈ fields.values.map fun f => (f.slot, f.default) :=
    List.mem_map.2 ⟨f, Keyed.mem_values_of_get? hf, rfl⟩
  refine Keyed.get?_insertAll_of_mem ?_ hmem
  rw [List.map_map]
  exact hslots

/-- Every slot holds what the value of its key is converted to, or its default. -/
theorem slots_get? (hslots : (k.fields.values.map (·.slot)).Nodup)
    (hdeclared : ∀ e ∈ p.keyed.entries, Declared k.fields e) {key : String} {f : Field}
    (hf : k.fields.get? key = some f) :
    ((defaults k.fields).insertAll (bindings k p).entries).get? f.slot
      = filled f (p.keyed.get? key) := by
  rw [entries_bindings hslots]
  cases hv : p.keyed.get? key with
  | some v =>
    have hmem := Keyed.get?_eq_some_iff.1 hv
    obtain ⟨f', w, hf', hw⟩ := hdeclared _ hmem
    obtain rfl : f = f' := Option.some.inj (hf.symm.trans hf')
    rw [Keyed.get?_insertAll_of_mem (nodup_converted hslots p.keyed.nodup)
      (mem_converted_iff.2 ⟨_, hmem, f, hf, hw, rfl⟩)]
    simp only [filled, hw, Except.toOption]
  | none =>
    rw [Keyed.get?_insertAll_of_not_mem, defaults_get? hslots hf, filled]
    intro hm
    obtain ⟨⟨slot, w⟩, hb, hslot⟩ := List.mem_map.1 hm
    obtain ⟨e, he, f', hf', -, hs⟩ := mem_converted_iff.1 hb
    have hkey := key_of_slot hslots hf hf' (hslot.symm.trans hs.symm)
    exact Keyed.get?_eq_none_iff.1 hv (hkey ▸ List.mem_map.2 ⟨e, he, rfl⟩)

/-! ### What an expansion comes to -/

theorem bindAndExpand_eq (i : Invocation) (p : Parameters) (t : Target) (b : Keyed Value)
    (d : Descriptor) :
    let e := bindAndExpand i p t b d
    Processor.hasBegun e.invocation.stage = true
      ∧ e.invocation.values = p.positional
      ∧ e.invocation.slots = i.slots.insertAll b.entries
      ∧ (e.descriptor, e.fault)
        = i.kind.expand ⟨i.kind.name, p.positional, i.slots.insertAll b.entries, t⟩ d := by
  simp only [bindAndExpand]
  cases i.kind.expand ⟨i.kind.name, p.positional, i.slots.insertAll b.entries, t⟩ d with
  | mk d' f? => cases f? <;> exact ⟨rfl, rfl, rfl, rfl⟩

/-- **An expansion by rules is exact and reports everything at once.**  Where no slot stands in
front of the parameters, the kind's own change is reached if and only if the parameters are
accepted; it then works with the values without a key, and with a slot for every declared key.
Otherwise the descriptor stays as it is, and one report has everything the checks found; it is about
the element, without a usage, if and only if the kind does not apply to the element.  Only a
conversion that breaks down keeps the report back: the expansion ends with its fault, with nothing
done but the checks. -/
theorem expand_exact (hmask : k.mask = some mask) (hchecks : k.checks = rules.map .rule)
    (hslots : (k.fields.values.map (·.slot)).Nodup) (hshown : k.hidesParameters = false)
    (hquiet : ∀ r ∈ rules, Quiet (r.complaints ⟨k.name, some p, some t⟩)) :
    let e := (new k p).expand t d
    (Processor.hasBegun e.invocation.stage = true ↔ Accepts k mask rules p t)
      ∧ (Accepts k mask rules p t →
        e.invocation.values = p.positional
          ∧ (∀ key f, k.fields.get? key = some f →
            e.invocation.slots.get? f.slot = filled f (p.keyed.get? key))
          ∧ (e.descriptor, e.fault)
            = k.expand ⟨k.name, p.positional, e.invocation.slots, t⟩ d)
      ∧ (¬Accepts k mask rules p t → Steady k.fields p.keyed.entries →
        e.descriptor = d ∧ e.invocation.stage = .failed
          ∧ e.fault = some (.reported {
            cause :=
              if mask.contains t.kind then .invalid ⟨found k mask rules p t, some k.usage, false⟩
              else .inapplicable ⟨found k mask rules p t, none, true⟩
            message := headline k.name t
              ++ (if mask.contains t.kind then "Expected usage: \n" ++ k.usage else "")
              ++ "\n == Errors == \n * " ++ "\n * ".intercalate (found k mask rules p t)
            directive := some k.identifier
            file := t.file
            line := t.line }))
      ∧ ∀ f, p.keyed.entries.findSome? (breakdown? k.fields) = some f →
        ∃ es, e = ⟨{ new k p with
          target := some t
          errors := es
          stage  := if mask.contains t.kind then .typeChecked else .parsed }, d, some f⟩ := by
  intro e
  have hq : ∀ c ∈ k.checks, Quiet (c.complaints ⟨k.name, some p, some t⟩) := by
    rw [hchecks, List.forall_mem_map]
    exact hquiet
  have hbroken (f : Fault) (hf : p.keyed.entries.findSome? (breakdown? k.fields) = some f) :=
    expand_not_steady (d := d) hmask hshown hq hf
  by_cases hsteady : Steady k.fields p.keyed.entries
  · have hnever (f : Fault) : p.keyed.entries.findSome? (breakdown? k.fields) ≠ some f := by
      rw [steady_iff.1 hsteady]
      nofun
    have he : e = _ := expand_new hmask hshown hq hsteady
    rw [findings_of_rules hchecks] at he
    have hfound : found k mask rules p t = [] ↔ Accepts k mask rules p t :=
      found_eq_nil_iff hchecks hquiet hsteady
    cases hcs : found k mask rules p t with
    | nil =>
      have hacc := hfound.1 hcs
      rw [hcs] at he
      obtain ⟨hbegun, hvalues, hslot, hexpand⟩ := bindAndExpand_eq
        { new k p with target := some t, stage := .typeChecked } p t (bindings k p) d
      simp only [← he] at hbegun hvalues hslot hexpand
      refine ⟨iff_of_true hbegun hacc, fun _ => ⟨hvalues, fun key f hf => ?_, ?_⟩,
        fun hn => absurd hacc hn, fun f hf => absurd hf (hnever f)⟩
      · rw [hslot]
        exact slots_get? hslots hacc.declared hf
      · rw [hexpand, hslot]
        rfl
    | cons c cs =>
      have hacc : ¬Accepts k mask rules p t := fun h => by
        rw [hfound.2 h] at hcs
        cases hcs
      rw [hcs] at he
      refine ⟨iff_of_false ?_ hacc, fun h => absurd h hacc, fun _ _ => ?_,
        fun f hf => absurd hf (hnever f)⟩
      · rw [he]
        exact Bool.false_ne_true
      · rw [he]
        cases hin : mask.contains t.kind <;> exact ⟨rfl, rfl, rfl⟩
  · have hacc : ¬Accepts k mask rules p t := fun h => hsteady (steady_of_declared h.declared)
    obtain ⟨f, hf⟩ := Option.ne_none_iff_exists'.1 (mt steady_iff.2 hsteady)
    obtain ⟨es, he⟩ := hbroken f hf
    refine ⟨iff_of_false ?_ hacc, fun h => absurd h hacc, fun _ h => absurd h hsteady, hbroken⟩
    have hstage : e.invocation.stage = if mask.contains t.kind then .typeChecked else .parsed :=
      congrArg (·.invocation.stage) he
    rw [hstage]
    split <;> exact Bool.false_ne_true

/-- The slot of a limit. -/
def limitField : Field := { slot := "maximum", convert := .integer, default := .int 10 }

/-- A kind that takes one value at most, under the key `max`. -/
def limitKind : Kind where
  name   := "LimitAnnotation"
  serial := 0
  mask   := some ⟨ElementKind.ofClass.bit⟩
  usage  := "!Limit [max: count]"
  fields := .ofList [("max", limitField)]
  checks := [.rule .acceptsNoKeylessValues, .rule (.maximumCount 1)]
  expand := Kind.recordBinding (.ofList [("max", limitField)])

/-- The parameters of `!Limit max: 3`. -/
def limitParameters : Parameters := ⟨[], .ofList [("max", .int 3)]⟩

/-- An element of a class. -/
def limitTarget (kind : ElementKind) : Target := ⟨kind, "User", "User", some "user.py", some 7, []⟩

theorem expand_exact_limit :
    let e := (new limitKind limitParameters).expand (limitTarget .ofClass) { className := "User" }
    Processor.hasBegun e.invocation.stage = true
      ∧ e.invocation.slots.get? "maximum" = some (.int 3) := by
  have hacc : Accepts limitKind ⟨1⟩ [.acceptsNoKeylessValues, .maximumCount 1] limitParameters
      (limitTarget .ofClass) := by
    refine ⟨rfl, ?_, ?_⟩
    · rintro r hr
      simp only [List.mem_cons, List.not_mem_nil, or_false] at hr
      rcases hr with rfl | rfl
      · rfl
      · exact Int.le_refl 1
    · rintro e he
      obtain rfl := List.mem_singleton.1 he
      exact ⟨_, _, rfl, rfl⟩
  have hquiet : ∀ r ∈ [Rule.acceptsNoKeylessValues, .maximumCount 1],
      Quiet (r.complaints ⟨limitKind.name, some limitParameters, some (limitTarget .ofClass)⟩) := by
    rintro r hr
    simp only [List.mem_cons, List.not_mem_nil, or_false] at hr
    rcases hr with rfl | rfl <;> exact fun c hc => nomatch hc
  obtain ⟨hbegun, hbound, -⟩ := expand_exact (d := { className := "User" })
    (rfl : limitKind.mask = some ⟨1⟩) rfl (by decide) (by decide) hquiet
  exact ⟨hbegun.2 hacc, (hbound hacc).2.1 "max" _ rfl⟩

/-- A kind whose only slot stands in front of the parameters. -/
def hidingKind : Kind where
  name   := "LogAnnotation"
  serial := 0
  mask   := some ⟨ElementKind.ofClass.bit⟩
  usage  := "!Log"
  fields := .ofList [("parameters", { slot := Field.parametersName })]
  checks := []
  expand := Kind.recordBinding .empty

/-- A kind whose conversion breaks down on every value. -/
def breakingKind : Kind :=
  { hidingKind with
    fields := .ofList [("level", {
      slot    := "level",
      convert := ⟨fun _ => .error (.other "'high'")⟩ })] }

/-- Without rules, a slot in front of the parameters keeps a kind from parameters that it accepts,
and a conversion that breaks down keeps the report back. -/
theorem hidden_unbegun_broken_unreported :
    let t := limitTarget .ofClass
    let p : Parameters := ⟨[], .ofList [("level", .text "high")]⟩
    let hidden := (new hidingKind .empty).expand t { className := "User" }
    let broken := (new breakingKind p).expand t { className := "User" }
    (∀ k ∈ [hidingKind, breakingKind], k.mask = some ⟨1⟩ ∧ k.checks = []
        ∧ (k.fields.values.map (·.slot)).Nodup)
      ∧ Accepts hidingKind ⟨1⟩ [] .empty t
      ∧ Processor.hasBegun hidden.invocation.stage = false
      ∧ hidden.fault = some (.alreadyBound "LogAnnotation")
      ∧ ¬Accepts breakingKind ⟨1⟩ [] p t
      ∧ broken.fault = some (.other "'high'") := by
  intro t p hidden broken
  have hkinds : ∀ k ∈ [hidingKind, breakingKind], k.mask = some ⟨1⟩ ∧ k.checks = []
      ∧ (k.fields.values.map (·.slot)).Nodup := by
    rw [List.forall_mem_cons, List.forall_mem_singleton]
    exact ⟨⟨rfl, rfl, by decide⟩, rfl, rfl, by decide⟩
  have haccepts : Accepts hidingKind ⟨1⟩ [] .empty t := ⟨rfl, nofun, nofun⟩
  have hrefuses : ¬Accepts breakingKind ⟨1⟩ [] p t := by
    intro h
    obtain ⟨f, w, hf, hw⟩ := h.declared ("level", .text "high") List.mem_cons_self
    obtain rfl := Option.some.inj hf
    cases hw
  exact ⟨hkinds, haccepts, rfl, rfl, hrefuses, rfl⟩

end DocDirective.Invocation
