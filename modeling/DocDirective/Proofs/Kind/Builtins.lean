import DocDirective.Kind.Mapping
import DocDirective.Proofs.Arguments.Values
import DocDirective.Proofs.Invocation.Expansion

/-!
# Proofs — Kind — Builtins

What the kinds that are always there do with the values of a text.  Their checks can word all their
complaints, and what the checks ask for is told exactly (`silent_route_iff`, `silent_column_iff`,
`Relates.silent_iff`).  Behind the checks, each change of a descriptor finds the texts that it
needs, with one exception: the kinds that take a single name (`takesName`) check that there is one
value and not that it is single, so a list in its place is turned down by the change itself.
-/

namespace DocDirective

/-! ### Rules that can be worded -/

theorem quiet_demand (holds : Bool) (complaint : String) : Quiet (Rule.demand holds complaint) := by
  unfold Rule.demand
  split <;> simp [Quiet]

theorem quiet_worded {complaint : Except Overlong String} (h : ∃ s, complaint = .ok s) :
    Quiet (Rule.worded complaint) := by
  obtain ⟨s, rfl⟩ := h
  simp [Quiet, Rule.worded, Fault.ofOverlong]

theorem quiet_flatMap {α : Type} {xs : List α} {f : α → Complaints} (h : ∀ x ∈ xs, Quiet (f x)) :
    Quiet (xs.flatMap f) := by
  intro c hc
  obtain ⟨x, hx, hc⟩ := List.mem_flatMap.1 hc
  exact h x hx c hc

theorem quiet_misfit (subject : String) {v : Value} (hv : v.Flat) (valid : String) :
    Quiet (Rule.misfit subject v valid) := by
  obtain ⟨s, hs⟩ := hv.display
  exact quiet_worded ⟨_, by rw [hs]; rfl⟩

namespace Rule

/-- The values that a rule names can stand in its complaints, and the place that it looks at is
counted from the start. -/
def Sayable : Rule → Prop
  | .acceptedIndexedValues index values _ => 0 ≤ index ∧ ∀ v ∈ values, v.Flat
  | .acceptedValuesForKey _ values _      => ∀ v ∈ values, v.Flat
  | _                                     => True

variable {p : Parameters}

theorem quiet_keyComplaints (keys : List String) : Quiet (keyComplaints keys p) := by
  intro c hc
  obtain ⟨k, -, rfl⟩ := List.mem_map.1 hc
  exact ⟨_, rfl⟩

theorem quiet_keylessComplaints (hp : p.Flat) (values : List Value) (case? : Option Case) :
    Quiet (keylessComplaints values case? p) := by
  refine quiet_flatMap fun v hv => quiet_worded ?_
  obtain ⟨s, hs⟩ := (hp.positional v (List.mem_of_mem_filter hv)).display
  exact ⟨_, by rw [hs]; rfl⟩

theorem quiet_indexedComplaints (hp : p.Flat) {index : Int} (hindex : 0 ≤ index)
    {values : List Value} (hvalues : ∀ v ∈ values, v.Flat) (case? : Option Case) :
    Quiet (indexedComplaints index values case? p) := by
  obtain ⟨valid, hvalid⟩ := Value.displayAll_of_flat hvalues
  simp only [indexedComplaints, hvalid]
  split
  · simp [Quiet]
  · rename_i hlen
    obtain ⟨n, rfl⟩ := Int.eq_ofNat_of_zero_le hindex
    have hn : n < p.positional.length := by omega
    have hv : valueAt p.positional n = some p.positional[n] := by
      simp [valueAt, List.getElem?_eq_getElem hn]
    rw [hv]
    dsimp only
    split
    · simp [Quiet]
    · exact quiet_misfit _ (hp.positional _ (List.getElem_mem hn)) _

theorem quiet_keyedComplaints (hp : p.Flat) (key : String) {values : List Value}
    (hvalues : ∀ v ∈ values, v.Flat) (case? : Option Case) :
    Quiet (keyedComplaints key values case? p) := by
  obtain ⟨valid, hvalid⟩ := Value.displayAll_of_flat hvalues
  simp only [keyedComplaints, hvalid]
  cases hv : p.get? (Text.lowered key) with
  | none => simp [Quiet]
  | some v =>
    dsimp only
    split
    · simp [Quiet]
    · exact quiet_misfit _ (hp.keyed _ (Keyed.get?_eq_some_iff.1 hv)) _

/-- Rules can word whatever they find among the values of a text. -/
theorem quiet_complaints (hp : p.Flat) {r : Rule} (hr : r.Sayable) (kind : String) (t : Target) :
    Quiet (r.complaints ⟨kind, some p, some t⟩) := by
  cases r with
  | acceptedKeys keys => exact quiet_keyComplaints keys
  | requiredKeys keys => exact quiet_flatMap fun k _ => quiet_demand _ _
  | acceptedKeylessValues values case? => exact quiet_keylessComplaints hp values case?
  | acceptedIndexedValues index values case? =>
    exact quiet_indexedComplaints hp hr.1 hr.2 case?
  | acceptedValuesForKey key values case? => exact quiet_keyedComplaints hp key hr case?
  | acceptsNoKeylessValues => exact quiet_keylessComplaints hp [] none
  | acceptsNoKeyedValues => exact quiet_keyComplaints []
  | validOnSubclassesOf annotated base => exact quiet_demand _ _
  | minimumCount n => exact quiet_demand _ _
  | maximumCount n => exact quiet_demand _ _
  | exactCount n => exact quiet_demand _ _

end Rule

/-- The mask of one kind of elements. -/
theorem Mask.contains_bit_iff {kind kind' : ElementKind} :
    Mask.contains ⟨kind'.bit⟩ kind = true ↔ kind = kind' := by
  cases kind <;> cases kind' <;> decide

/-! ### Conversions that turn values down -/

namespace Converter

/-- The conversion never breaks down: whatever it does not take, it says something against. -/
def Sound (c : Converter) : Prop := ∀ v f, c.apply v = .error f → f.unfit?.isSome = true

theorem sound_of_ofUnfit {conversion : Value → Except Unfit Value} :
    Sound ⟨fun v => Fault.ofUnfit (conversion v)⟩ := by
  intro v f h
  dsimp only at h
  cases hv : conversion v with
  | ok w =>
    rw [hv] at h
    cases h
  | error u =>
    rw [hv] at h
    cases h
    rfl

theorem sound_any : any.Sound := nofun

end Converter

theorem Invocation.steady_of_sound {fields : Keyed Field}
    (h : ∀ f ∈ fields.values, f.convert.Sound) (es : List (String × Value)) :
    Steady fields es := by
  intro e _
  unfold breakdown?
  cases hf : fields.get? e.1 with
  | none => rfl
  | some f =>
    have hsound := h f (Keyed.mem_values_of_get? hf)
    cases hv : f.convert.apply e.2 with
    | ok w => simp [hv]
    | error g => simp [hv, hsound _ _ hv]

namespace Kind

theorem exists_mask {k : Kind} (hk : k ∈ builtins) : ∃ mask, k.mask = some mask := by
  simp only [builtins, List.mem_cons, List.not_mem_nil, or_false] at hk
  rcases hk with rfl | rfl | rfl | rfl | rfl | rfl | rfl <;> exact ⟨_, rfl⟩

theorem shown_builtins {k : Kind} (hk : k ∈ builtins) : k.hidesParameters = false :=
  (by decide : ∀ k ∈ builtins, k.hidesParameters = false) k hk

theorem convert_builtins {k : Kind} (hk : k ∈ builtins) {f : Field} (hf : f ∈ k.fields.values) :
    f.convert = .text ∨ f.convert = .truth ∨ f.convert = .any := by
  have hconvert : f.convert ∈ k.fields.values.map (·.convert) := List.mem_map_of_mem hf
  simp only [builtins, List.mem_cons, List.not_mem_nil, or_false] at hk
  rcases hk with rfl | rfl | rfl | rfl | rfl | rfl | rfl
  · exact .inl (List.mem_singleton.1 hconvert)
  · cases hconvert
  · cases hconvert
  · cases hconvert
  · obtain h | h := List.mem_pair.1 hconvert
    · exact .inr (.inl h)
    · exact .inr (.inr h)
  · exact .inl (List.eq_of_mem_replicate (show f.convert ∈ List.replicate 4 .text from hconvert))
  · exact .inl (List.eq_of_mem_replicate (show f.convert ∈ List.replicate 3 .text from hconvert))

/-- The conversions of the kinds that are always there do not break down. -/
theorem steady_builtins {k : Kind} (hk : k ∈ builtins) (es : List (String × Value)) :
    Invocation.Steady k.fields es := by
  refine Invocation.steady_of_sound (fun f hf => ?_) es
  obtain h | h | h := convert_builtins hk hf <;> rw [h]
  · exact Converter.sound_of_ofUnfit
  · exact Converter.sound_of_ofUnfit
  · exact Converter.sound_any

/-! ### Looks of their own -/

variable {p : Parameters} {t : Target} {kind : String}

theorem quiet_lookAtRoute : Quiet (lookAtRoute ⟨kind, some p, some t⟩) := by
  simp only [lookAtRoute, Subject.withParameters]
  split
  · simp [Quiet]
  · split <;> simp [Quiet]

theorem isText_of_isWordOf {words : List String} {v : Value} (h : isWordOf words v = true) :
    ∃ s, v = .text s := by
  cases v with
  | text s => exact ⟨s, rfl⟩
  | _ => cases h

/-- The text that a filter for words leaves is one of the values and one of the words. -/
theorem mem_of_filter_isWordOf {words : List String} {vs : List Value} {s : String}
    (h : vs.filter (isWordOf words) = [.text s]) : .text s ∈ vs ∧ Text.lowered s ∈ words := by
  have hmem : .text s ∈ vs.filter (isWordOf words) := by
    rw [h]
    exact List.mem_cons_self
  obtain ⟨hmem, hword⟩ := List.mem_filter.1 hmem
  exact ⟨hmem, of_decide_eq_true hword⟩

/-- Where words are counted once among values, a filter for them leaves one text. -/
theorem countP_isWordOf_eq_one_iff {vs : List Value} {words : List String} :
    vs.countP (isWordOf words) = 1 ↔ ∃ s, vs.filter (isWordOf words) = [.text s] := by
  rw [List.countP_eq_length_filter, List.length_eq_one_iff]
  constructor
  · rintro ⟨v, hv⟩
    have hmem : v ∈ vs.filter (isWordOf words) := by
      rw [hv]
      exact List.mem_cons_self
    obtain ⟨s, rfl⟩ := isText_of_isWordOf (List.of_mem_filter hmem)
    exact ⟨s, hv⟩
  · rintro ⟨s, hs⟩
    exact ⟨_, hs⟩

theorem mapM_plain {vs : List Value} (h : ∀ v ∈ vs, ∃ s, v = .text s) :
    ∃ ts, vs.mapM Value.plain = .ok ts := by
  induction vs with
  | nil => exact ⟨[], rfl⟩
  | cons v vs ih =>
    rw [List.forall_mem_cons] at h
    obtain ⟨s, rfl⟩ := h.1
    obtain ⟨ts, hts⟩ := ih h.2
    exact ⟨s :: ts, by rw [List.mapM_cons, hts]; rfl⟩

theorem quiet_lookAtColumn : Quiet (lookAtColumn ⟨kind, some p, some t⟩) := by
  simp only [lookAtColumn, Subject.withParameters]
  split
  · simp [Quiet]
  · simp [Quiet]
  · have htexts : ∀ v ∈ p.positional.filter (isWordOf columnTypes), ∃ s, v = .text s :=
      fun v hv => isText_of_isWordOf (List.of_mem_filter hv)
    obtain ⟨ts, hts⟩ := mapM_plain htexts
    refine quiet_worded ?_
    rw [hts]
    exact ⟨_, rfl⟩

theorem quiet_lookAtRelation : Quiet (lookAtRelation ⟨kind, some p, some t⟩) := by
  simp only [lookAtRelation, Subject.withParameters]
  split <;> simp [Quiet]

theorem lookAtRoute_eq_nil_iff : lookAtRoute ⟨kind, some p, some t⟩ = []
    ↔ ∃ a b, p.positional = [a, b] ∧ b.isList = false := by
  simp only [lookAtRoute, Subject.withParameters]
  split
  · rename_i hlen
    refine iff_of_false (by simp) ?_
    rintro ⟨a, b, hab, -⟩
    exact hlen (congrArg List.length hab)
  · rename_i hlen
    obtain ⟨a, b, hab⟩ := List.length_eq_two.1 (not_not.1 hlen)
    cases hb : b.isList <;> simp [hab, hb]

theorem lookAtColumn_eq_nil_iff : lookAtColumn ⟨kind, some p, some t⟩ = []
    ↔ p.positional.countP (isWordOf columnTypes) = 1 := by
  rw [List.countP_eq_length_filter]
  simp only [lookAtColumn, Subject.withParameters]
  split
  · rename_i hnone
    simp [hnone]
  · rename_i hone
    simp [hone]
  · rename_i hmany
    refine iff_of_false (by simp [Rule.worded]) fun hlen => ?_
    obtain ⟨v, hv⟩ := List.length_eq_one_iff.1 hlen
    exact hmany v hv

theorem lookAtRelation_eq_nil_iff : lookAtRelation ⟨kind, some p, some t⟩ = []
    ↔ ∃ name, p.positional = [.text name] := by
  simp only [lookAtRelation, Subject.withParameters]
  split
  · rename_i name hname
    exact iff_of_true rfl ⟨name, hname⟩
  · rename_i hnone
    refine iff_of_false (by simp) ?_
    rintro ⟨name, hname⟩
    exact hnone name hname

theorem flat_of_mem_texts {ss : List String} {v : Value} (h : v ∈ ss.map .text) : v.Flat := by
  obtain ⟨s, -, rfl⟩ := List.mem_map.1 h
  exact .single (.text s)

/-- The checks of the kinds that are always there can word whatever they find. -/
theorem quiet_builtins {k : Kind} (hk : k ∈ builtins) (hp : p.Flat) (t : Target) :
    ∀ c ∈ k.checks, Quiet (c.complaints ⟨k.name, some p, some t⟩) := by
  have hrule {kind : String} {r : Rule} (hr : r.Sayable) :
      Quiet ((Check.rule r).complaints ⟨kind, some p, some t⟩) :=
    Rule.quiet_complaints hp hr kind t
  have hrelation (kind : String) (keys : List String) :
      ∀ c ∈ relationChecks keys, Quiet (c.complaints ⟨kind, some p, some t⟩) := by
    simp only [relationChecks, List.forall_mem_cons, List.not_mem_nil]
    exact ⟨hrule trivial, quiet_lookAtRelation, hrule fun _ => flat_of_mem_texts,
      fun _ h => nomatch h⟩
  have hname (kind : String) :
      ∀ c ∈ [Check.rule .acceptsNoKeyedValues, .rule (.exactCount 1)],
        Quiet (c.complaints ⟨kind, some p, some t⟩) := by
    simp only [List.forall_mem_cons, List.not_mem_nil]
    exact ⟨hrule trivial, hrule trivial, fun _ h => nomatch h⟩
  simp only [builtins, List.mem_cons, List.not_mem_nil, or_false] at hk
  rcases hk with rfl | rfl | rfl | rfl | rfl | rfl | rfl
  · simp only [route, List.forall_mem_cons, List.not_mem_nil]
    exact ⟨hrule trivial, hrule ⟨Int.le_refl 0, fun _ => flat_of_mem_texts⟩, quiet_lookAtRoute,
      fun _ h => nomatch h⟩
  · exact hname _
  · exact hname _
  · exact hname _
  · simp only [column, List.forall_mem_cons, List.not_mem_nil]
    exact ⟨hrule trivial, hrule trivial, hrule trivial, quiet_lookAtColumn, fun _ h => nomatch h⟩
  · exact hrelation _ _
  · exact hrelation _ _

/-! ### What the checks leave to the changes -/

theorem isText_of_isIn {ss : List String} {v : Value} (h : v.isIn (ss.map .text) = true) :
    ∃ s, v = .text s := by
  obtain ⟨w, hw, hsame⟩ := List.any_eq_true.1 h
  obtain ⟨s, -, rfl⟩ := List.mem_map.1 hw
  cases v with
  | text t => exact ⟨t, rfl⟩
  | _ => simp [Value.same] at hsame

theorem isText_of_fold {case? : Option Case} {v : Value} {s : String}
    (h : foldBy case? v = .text s) : ∃ s, v = .text s := by
  cases v with
  | text t => exact ⟨t, rfl⟩
  | _ => rcases case? with _ | ⟨_ | _⟩ <;> cases h

theorem quiet_of_eq_nil {cs : Complaints} (h : cs = []) : Quiet cs := by
  rw [h]
  exact fun _ hc => nomatch hc

theorem holds_of_silent {k : Kind}
    (hs : ∀ c ∈ k.checks, c.complaints ⟨k.name, some p, some t⟩ = []) {r : Rule}
    (hr : .rule r ∈ k.checks) : r.Holds p t :=
  (Rule.complaints_eq_nil_iff (quiet_of_eq_nil (hs _ hr))).1 (hs _ hr)

theorem isIn_texts (s : String) (ss : List String) :
    (Value.text s).isIn (ss.map .text) = decide (s ∈ ss) := by
  induction ss with
  | nil => rfl
  | cons r ss ih =>
    have hcons : (Value.text s).isIn ((r :: ss).map .text)
        = (r == s || (Value.text s).isIn (ss.map .text)) := by
      simp [Value.isIn, Value.same, Value.isBool]
    rw [hcons, ih, Bool.eq_iff_iff, Bool.or_eq_true, beq_iff_eq, decide_eq_true_iff,
      decide_eq_true_iff, List.mem_cons]
    exact or_congr_left eq_comm

/-- The text in a letter case. -/
def foldText : Case → String → String
  | .lower => Text.lowered
  | .upper => Text.uppered

/-- Among words is, in a letter case, a text that is one of them in that case. -/
theorem isIn_fold_iff {c : Case} {v : Value} {words : List String} :
    (foldBy (some c) v).isIn (words.map .text) = true
      ↔ ∃ s, v = .text s ∧ foldText c s ∈ words := by
  have htext (s : String) : (foldBy (some c) (.text s)).isIn (words.map .text) = true
      ↔ foldText c s ∈ words := by
    have hfold : foldBy (some c) (.text s) = .text (foldText c s) := by cases c <;> rfl
    rw [hfold, isIn_texts, decide_eq_true_eq]
  constructor
  · intro h
    obtain ⟨w, hw⟩ := isText_of_isIn h
    obtain ⟨s, rfl⟩ := isText_of_fold hw
    exact ⟨s, rfl, (htext s).1 h⟩
  · rintro ⟨s, rfl, h⟩
    exact (htext s).2 h

/-- What the checks of a route ask for: the declared keys, a method, and a path that is no list. -/
theorem silent_route_iff :
    (∀ c ∈ route.checks, c.complaints ⟨route.name, some p, some t⟩ = [])
      ↔ (∀ key ∈ p.keyed.keys, key ∈ route.fields.keys)
        ∧ ∃ m v, p.positional = [.text m, v] ∧ Text.uppered m ∈ httpMethods
          ∧ v.isList = false := by
  have hall : (∀ c ∈ route.checks, c.complaints ⟨route.name, some p, some t⟩ = [])
      ↔ Rule.keyComplaints route.fields.keys p = []
        ∧ Rule.indexedComplaints 0 (httpMethods.map .text) (some .upper) p = []
        ∧ lookAtRoute ⟨route.name, some p, some t⟩ = [] := by
    simp only [route, List.forall_mem_cons, List.not_mem_nil, false_imp_iff, implies_true,
      and_true]
    exact Iff.rfl
  have hflat : ∀ v ∈ httpMethods.map Value.text, v.Flat := fun _ => flat_of_mem_texts
  obtain ⟨valid, hvalid⟩ := Value.displayAll_of_flat hflat
  rw [hall, Rule.keyComplaints_of_lowered (by decide), Rule.indexedComplaints_eq_nil_iff hvalid,
    lookAtRoute_eq_nil_iff]
  refine and_congr_right fun _ => ⟨?_, ?_⟩
  · rintro ⟨⟨v, hv, hin⟩, a, b, hab, hb⟩
    rw [hab] at hv
    obtain rfl : a = v := Option.some.inj hv
    obtain ⟨m, rfl, hm⟩ := isIn_fold_iff.1 hin
    exact ⟨m, b, hab, hm, hb⟩
  · rintro ⟨m, v, hvalues, hm, hv⟩
    refine ⟨⟨.text m, ?_, isIn_fold_iff.2 ⟨m, rfl, hm⟩⟩, _, v, hvalues, hv⟩
    rw [hvalues]
    rfl

/-- What the checks of a column ask for: the declared keys, words of columns, and one type among
them. -/
theorem silent_column_iff :
    (∀ c ∈ column.checks, c.complaints ⟨column.name, some p, some t⟩ = [])
      ↔ (∀ key ∈ p.keyed.keys, key ∈ column.fields.keys)
        ∧ (∀ v ∈ p.positional,
          ∃ s, v = .text s ∧ Text.lowered s ∈ columnTypes ++ columnModifiers)
        ∧ ∃ type, p.positional.filter (isWordOf columnTypes) = [.text type] := by
  have hall : (∀ c ∈ column.checks, c.complaints ⟨column.name, some p, some t⟩ = [])
      ↔ (Rule.minimumCount 1).complaints ⟨column.name, some p, some t⟩ = []
        ∧ Rule.keyComplaints column.fields.keys p = []
        ∧ Rule.keylessComplaints ((columnTypes ++ columnModifiers).map .text) (some .lower) p = []
        ∧ lookAtColumn ⟨column.name, some p, some t⟩ = [] := by
    simp only [column, List.forall_mem_cons, List.not_mem_nil, false_imp_iff, implies_true,
      and_true]
    exact Iff.rfl
  have hwords : (∀ v ∈ p.positional,
      (foldBy (some .lower) v).isIn ((columnTypes ++ columnModifiers).map .text) = true)
        ↔ ∀ v ∈ p.positional,
          ∃ s, v = .text s ∧ Text.lowered s ∈ columnTypes ++ columnModifiers :=
    forall₂_congr fun _ _ => isIn_fold_iff
  -- a type is a value, so that there is one value at least
  have hcount : (∃ type, p.positional.filter (isWordOf columnTypes) = [.text type])
      → (Rule.minimumCount 1).complaints ⟨column.name, some p, some t⟩ = [] := by
    rintro ⟨type, htype⟩
    refine Rule.demand_eq_nil_iff.2 (decide_eq_true ?_)
    have hpos := List.length_pos_of_mem (mem_of_filter_isWordOf htype).1
    rw [Parameters.size]
    omega
  rw [hall, Rule.keyComplaints_of_lowered (by decide), Rule.keylessComplaints_eq_nil_iff, hwords,
    lookAtColumn_eq_nil_iff, countP_isWordOf_eq_one_iff]
  exact ⟨fun h => h.2, fun h => ⟨hcount h.2.2, h⟩⟩

/-- The kinds of relations, each with its word and with what stands for a class or a key that is
not given. -/
inductive Relates : Kind → Convention → Prop
  | hasMany : Relates hasMany
      { word         := "has_many"
        defaultClass := fun name => Text.upperFirst (singular name)
        defaultKey   := fun _ className => Text.lowerFirst className ++ "Id" }
  | belongsTo : Relates belongsTo
      { word         := "belongs_to"
        defaultClass := fun name => Text.upperFirst name
        defaultKey   := fun name _ => name ++ "Id" }

namespace Relates

variable {k : Kind} {c : Convention}

theorem mem (h : Relates k c) : k ∈ builtins := by
  cases h <;> simp [builtins]

theorem expand_eq (h : Relates k c) : k.expand = expandRelation c := by
  cases h <;> rfl

theorem checks_eq (h : Relates k c) : k.checks = relationChecks k.fields.keys := by
  cases h <;> rfl

theorem lowered_keys (h : Relates k c) : k.fields.keys.map Text.lowered = k.fields.keys := by
  cases h <;> decide

/-- What the checks of a relation ask for: the declared keys, a name, and one of the actions. -/
theorem silent_iff (h : Relates k c) :
    (∀ c ∈ k.checks, c.complaints ⟨k.name, some p, some t⟩ = [])
      ↔ (∀ key ∈ p.keyed.keys, key ∈ k.fields.keys)
        ∧ (∃ name, p.positional = [.text name])
        ∧ ∀ v, p.keyed.get? "ondelete" = some v →
          ∃ s, v = .text s ∧ Text.lowered s ∈ onDeleteActions := by
  have hall : (∀ c ∈ k.checks, c.complaints ⟨k.name, some p, some t⟩ = [])
      ↔ Rule.keyComplaints k.fields.keys p = []
        ∧ lookAtRelation ⟨k.name, some p, some t⟩ = []
        ∧ Rule.keyedComplaints "ondelete" (onDeleteActions.map .text) (some .lower) p = [] := by
    rw [h.checks_eq, relationChecks]
    simp only [List.forall_mem_cons, List.not_mem_nil, false_imp_iff, implies_true, and_true]
    exact Iff.rfl
  have haction : (∀ v, p.get? (Text.lowered "ondelete") = some v →
      (foldBy (some .lower) v).isIn (onDeleteActions.map .text) = true)
        ↔ ∀ v, p.keyed.get? "ondelete" = some v →
          ∃ s, v = .text s ∧ Text.lowered s ∈ onDeleteActions :=
    forall₂_congr fun _ _ => isIn_fold_iff
  rw [hall, Rule.keyComplaints_of_lowered h.lowered_keys, lookAtRelation_eq_nil_iff,
    Rule.keyedComplaints_eq_nil_iff, haction]

end Relates

/-! ### Changes behind their checks -/

/-- The kinds that take a single name. -/
def takesName : List Kind := [routesPrefix, table, source]

/-- The only value is a list. -/
def GivesList (p : Parameters) : Prop := ∃ xs, p = ⟨[.list xs], .empty⟩

/-- The change of a descriptor goes through. -/
def Succeeds (k : Kind) (p : Parameters) (t : Target) : Prop :=
  ∀ slots d, (k.expand ⟨k.name, p.positional, slots, t⟩ d).2 = none

theorem expandText_ok {change : String → Descriptor → Descriptor} {kind : String} {v : Value}
    {vs : List Value} {slots : Keyed Value} {d : Descriptor} {s : String} (h : v.asText = .ok s) :
    expandText change ⟨kind, v :: vs, slots, t⟩ d = (change s d, none) := by
  simp only [expandText, h]

/-- What the checks of a kind that takes a single name leave. -/
theorem single_of_name (hkeyed : Rule.acceptsNoKeyedValues.Holds p t)
    (hcount : (Rule.exactCount 1).Holds p t) : ∃ v, p = ⟨[v], .empty⟩ := by
  obtain ⟨vs, keyed⟩ := p
  have hempty : keyed.entries = [] := List.map_eq_nil_iff.1 hkeyed
  have hlen : vs.length = 1 := by
    have : ((vs.length + keyed.entries.length : Nat) : Int) = 1 := hcount
    rw [hempty, List.length_nil] at this
    omega
  obtain ⟨v, rfl⟩ := List.length_eq_one_iff.1 hlen
  exact ⟨v, by rw [Keyed.eq_of_entries (u := .empty) hempty]⟩

/-- A name that is no list is taken. -/
theorem succeeds_of_name {k : Kind} {change : String → Descriptor → Descriptor}
    (hexpand : k.expand = expandText change) (hp : p.Flat)
    (hkeyed : Rule.acceptsNoKeyedValues.Holds p t) (hcount : (Rule.exactCount 1).Holds p t)
    (hlist : ¬GivesList p) : Succeeds k p t := by
  obtain ⟨v, rfl⟩ := single_of_name hkeyed hcount
  have hv : v.Flat := hp.positional v List.mem_cons_self
  cases hv with
  | single hs =>
    obtain ⟨s, hs⟩ := hs.asText
    intro slots d
    rw [hexpand, expandText_ok hs]
  | @list vs _ => exact absurd ⟨vs, rfl⟩ hlist

theorem firstTwoTexts_ok {m path : String} {v : Value} (h : v.asText = .ok path) :
    firstTwoTexts [.text m, v] = .ok (m, path) := by
  simp only [firstTwoTexts, h]
  rfl

theorem succeeds_route (hp : p.Flat)
    (hs : ∀ c ∈ route.checks, c.complaints ⟨route.name, some p, some t⟩ = []) :
    Succeeds route p t := by
  obtain ⟨-, m, v, hvalues, -, hv⟩ := silent_route_iff.1 hs
  obtain ⟨path, hpath⟩ := (hp.positional v (by simp [hvalues])).asText hv
  intro slots d
  simp only [route, expandRoute, hvalues, firstTwoTexts_ok hpath]

/-- Among the words of a column, the types are those that are no modifiers. -/
theorem columnTypeText_eq {vs : List Value} {type : String}
    (hwords : ∀ v ∈ vs, ∃ s, v = .text s ∧ Text.lowered s ∈ columnTypes ++ columnModifiers)
    (htype : vs.filter (isWordOf columnTypes) = [.text type]) : columnTypeText vs = .ok type := by
  have hdisjoint : ∀ s ∈ columnTypes, s ∉ columnModifiers := by decide
  have hword (v : Value) (hv : v ∈ vs) :
      (!(foldBy (some .lower) v).isIn (columnModifiers.map .text)) = isWordOf columnTypes v := by
    obtain ⟨w, rfl, hw⟩ := hwords v hv
    rw [foldBy, Case.fold, isIn_texts, isWordOf]
    rcases List.mem_append.1 hw with h | h
    · simp [h, hdisjoint _ h]
    · have hnot : Text.lowered w ∉ columnTypes := fun h' => hdisjoint _ h' h
      simp [h, hnot]
  have hfirst : Invocation.firstOutside vs (columnModifiers.map .text) (some .lower)
      = some (.text type) := by
    rw [Invocation.firstOutside, ← List.head?_filter, List.filter_congr hword, htype]
    rfl
  have hnonempty : type.isEmpty = false := by
    obtain ⟨-, hlower⟩ := mem_of_filter_isWordOf htype
    rw [Bool.eq_false_iff]
    intro hempty
    rw [String.isEmpty_iff.1 hempty] at hlower
    exact absurd hlower (by decide)
  simp only [columnTypeText, hfirst, Value.isBare, hnonempty]
  rfl

theorem succeeds_column
    (hs : ∀ c ∈ column.checks, c.complaints ⟨column.name, some p, some t⟩ = []) :
    Succeeds column p t := by
  obtain ⟨-, hwords, type, htype⟩ := silent_column_iff.1 hs
  intro slots d
  simp only [column, expandColumn, columnTypeText_eq hwords htype]

theorem Relates.succeeds (hr : Relates k c)
    (hs : ∀ c ∈ k.checks, c.complaints ⟨k.name, some p, some t⟩ = []) : Succeeds k p t := by
  obtain ⟨-, ⟨name, hname⟩, -⟩ := hr.silent_iff.1 hs
  have htext : (Value.text name).asText = .ok name := rfl
  intro slots d
  rw [hr.expand_eq, expandRelation, hname, expandText_ok htext]

/-- **Behind its checks, every change goes through but that of a single name by a list.** -/
theorem succeeds_builtins {k : Kind} (hk : k ∈ builtins) (hp : p.Flat)
    (hs : ∀ c ∈ k.checks, c.complaints ⟨k.name, some p, some t⟩ = [])
    (hlist : ¬(k ∈ takesName ∧ GivesList p)) : Succeeds k p t := by
  have hname {change : String → Descriptor → Descriptor} (hexpand : k.expand = expandText change)
      (htakes : k ∈ takesName)
      (hchecks : k.checks = [.rule .acceptsNoKeyedValues, .rule (.exactCount 1)]) :
      Succeeds k p t := by
    refine succeeds_of_name hexpand hp ?_ ?_ fun h => hlist ⟨htakes, h⟩
    · exact holds_of_silent hs (by simp [hchecks])
    · exact holds_of_silent hs (by simp [hchecks])
  simp only [builtins, List.mem_cons, List.not_mem_nil, or_false] at hk
  rcases hk with rfl | rfl | rfl | rfl | rfl | rfl | rfl
  · exact succeeds_route hp hs
  · exact hname rfl (by simp [takesName]) rfl
  · exact hname rfl (by simp [takesName]) rfl
  · exact hname rfl (by simp [takesName]) rfl
  · exact succeeds_column hs
  · exact Relates.hasMany.succeeds hs
  · exact Relates.belongsTo.succeeds hs

end Kind

end DocDirective
