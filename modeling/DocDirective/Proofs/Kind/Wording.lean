import DocDirective.Kind.Mapping
import DocDirective.Proofs.Invocation.Checks

/-!
# Proofs — Kind — Wording

How complaints start.  Every rule starts its complaints with the same words (`Rule.opened`), and
the looks of the kinds that are always there have a few openings each.  Where neither of two
openings starts with the other, no complaint starts with both (`Apart.not_opens`); so a complaint
tells which check it comes from, although it also holds names, keys and values that may be any text.
The kinds that are always there have their openings apart where it matters (`Kind.worded_builtins`).
-/

namespace DocDirective

/-! ### Openings -/

/-- The message starts with the words. -/
def Opens (words message : String) : Prop := words.toList <+: message.toList

theorem Opens.refl (words : String) : Opens words words := List.prefix_rfl

theorem Opens.append {words message : String} (h : Opens words message) (rest : String) :
    Opens words (message ++ rest) := by
  rw [Opens, String.toList_append]
  exact h.trans (List.prefix_append _ _)

/-- Neither text starts with the other. -/
def Apart (words words' : String) : Prop := ¬Opens words words' ∧ ¬Opens words' words

instance (words message : String) : Decidable (Opens words message) :=
  inferInstanceAs (Decidable (_ <+: _))

instance (words words' : String) : Decidable (Apart words words') :=
  inferInstanceAs (Decidable (_ ∧ _))

theorem Apart.not_opens {words words' message : String} (h : Apart words words')
    (hm : Opens words message) : ¬Opens words' message := by
  intro hm'
  obtain hpre | hpre := List.prefix_or_prefix_of_prefix hm hm'
  · exact h.1 hpre
  · exact h.2 hpre

/-- Every complaint that could be worded starts with one of the openings, and a fault in place of
one is no report. -/
def Opened (openings : List String) (cs : Complaints) : Prop :=
  ∀ c ∈ cs, match c with
    | .ok m    => ∃ words ∈ openings, Opens words m
    | .error f => ∀ e, f ≠ .reported e

theorem Opened.opens {openings : List String} {cs : Complaints} {m : String}
    (h : Opened openings cs) (hm : m ∈ texts cs) : ∃ words ∈ openings, Opens words m :=
  h _ (mem_texts.1 hm)

theorem opened_nil (openings : List String) : Opened openings [] := fun _ hc => nomatch hc

theorem opened_ok {openings : List String} {words m : String} (hwords : words ∈ openings)
    (hm : Opens words m) : Opened openings [.ok m] :=
  List.forall_mem_singleton.2 ⟨words, hwords, hm⟩

theorem opened_error (openings : List String) {f : Fault} (hf : ∀ e, f ≠ .reported e) :
    Opened openings [.error f] :=
  List.forall_mem_singleton.2 hf

theorem Opened.flatMap {α : Type} {openings : List String} {xs : List α} {f : α → Complaints}
    (h : ∀ x, Opened openings (f x)) : Opened openings (xs.flatMap f) := by
  intro c hc
  obtain ⟨x, -, hmem⟩ := List.mem_flatMap.1 hc
  exact h x c hmem

theorem opened_withParameters {openings : List String} {s : Subject} {f : Parameters → Complaints}
    (h : ∀ p, Opened openings (f p)) : Opened openings (s.withParameters f) := by
  unfold Subject.withParameters
  split
  · exact h _
  · exact opened_error _ nofun

/-! ### Rules -/

namespace Rule

/-- The words that a complaint about a key starts with. -/
def unknownOpening : String := "Invalid parameter"

theorem opens_unknownKey (key : String) : Opens unknownOpening (unknownKey key) := by
  have hopens : Opens unknownOpening "Invalid parameter: \"" := by decide
  exact (hopens.append key).append _

theorem unknownKey_injective {key key' : String} (h : unknownKey key = unknownKey key') :
    key = key' := by
  have hcut := (String.append_left_inj _).1 h
  exact (String.append_right_inj _).1 hcut

/-- The words that the complaints of a rule start with. -/
def opening (kind : String) : Rule → String
  | .acceptedKeys _              => unknownOpening
  | .requiredKeys _              => kind ++ " requires a '"
  | .acceptedKeylessValues _ _   => "Unknown parameter: \""
  | .acceptedIndexedValues _ _ _ => "Parameter "
  | .acceptedValuesForKey _ _ _  => "The \""
  | .acceptsNoKeylessValues      => "Unknown parameter: \""
  | .acceptsNoKeyedValues        => unknownOpening
  | .validOnSubclassesOf _ _     => kind ++ " is only valid on objects of type "
  | .minimumCount _              => kind ++ " takes at least "
  | .maximumCount _              => kind ++ " takes at most "
  | .exactCount _                => kind ++ " requires exactly "

theorem opened_demand {words complaint : String} (h : Opens words complaint) (holds : Bool) :
    Opened [words] (demand holds complaint) := by
  unfold demand
  split
  · exact opened_nil _
  · exact opened_ok List.mem_cons_self h

theorem opened_worded_map {words : String} (t : Except Overlong String) {f : String → String}
    (h : ∀ s, Opens words (f s)) : Opened [words] (worded (t.map f)) := by
  cases t with
  | error o => exact opened_error _ nofun
  | ok s => exact opened_ok List.mem_cons_self (h s)

theorem mem_texts_keyComplaints {keys : List String} {p : Parameters} {m : String} :
    m ∈ texts (keyComplaints keys p)
      ↔ ∃ key ∈ p.keyed.keys, key ∉ keys.map Text.lowered ∧ m = unknownKey key := by
  rw [mem_texts, keyComplaints, List.mem_map]
  constructor
  · rintro ⟨key, hkey, hsays⟩
    cases hsays
    rw [List.mem_filter, decide_eq_true_iff] at hkey
    exact ⟨key, hkey.1, hkey.2, rfl⟩
  · rintro ⟨key, hin, hnot, rfl⟩
    exact ⟨key, List.mem_filter.2 ⟨hin, decide_eq_true hnot⟩, rfl⟩

theorem opened_keyComplaints (keys : List String) (p : Parameters) :
    Opened [unknownOpening] (keyComplaints keys p) := by
  intro c hc
  obtain ⟨key, -, rfl⟩ := List.mem_map.1 hc
  exact ⟨_, List.mem_cons_self, opens_unknownKey key⟩

theorem opened_keylessComplaints (values : List Value) (case? : Option Case) (p : Parameters) :
    Opened ["Unknown parameter: \""] (keylessComplaints values case? p) :=
  Opened.flatMap fun v => opened_worded_map v.display fun s => ((Opens.refl _).append s).append _

theorem opened_misfit {words subject : String} (h : Opens words subject) (v : Value)
    (valid : String) : Opened [words] (misfit subject v valid) := by
  refine opened_worded_map v.display fun s => ?_
  exact ((((h.append _).append _).append _).append _).append _

theorem opened_indexedComplaints (index : Int) (values : List Value) (case? : Option Case)
    (p : Parameters) : Opened ["Parameter "] (indexedComplaints index values case? p) := by
  have hplace : Opens "Parameter " s!"Parameter {index}" := (Opens.refl _).append _
  unfold indexedComplaints
  split
  · exact opened_error _ nofun
  · split_ifs
    · exact opened_ok List.mem_cons_self (((hplace.append _).append _).append _)
    · split
      · exact opened_error _ nofun
      · split_ifs
        · exact opened_nil _
        · exact opened_misfit hplace _ _

theorem opened_keyedComplaints (key : String) (values : List Value) (case? : Option Case)
    (p : Parameters) : Opened ["The \""] (keyedComplaints key values case? p) := by
  unfold keyedComplaints
  dsimp only
  split
  · exact opened_nil _
  · split_ifs
    · exact opened_nil _
    · split
      · exact opened_error _ nofun
      · exact opened_misfit (((Opens.refl _).append _).append _) _ _

/-- The complaints of a rule start with the same words. -/
theorem opened (s : Subject) (r : Rule) : Opened [r.opening s.kind] (r.complaints s) := by
  cases r with
  | acceptedKeys keys => exact opened_withParameters fun p => opened_keyComplaints keys p
  | requiredKeys keys =>
    refine Opened.flatMap fun key => opened_withParameters fun p => ?_
    exact opened_demand (((Opens.refl _).append _).append _) _
  | acceptedKeylessValues values case? =>
    exact opened_withParameters fun p => opened_keylessComplaints values case? p
  | acceptedIndexedValues index values case? =>
    exact opened_withParameters fun p => opened_indexedComplaints index values case? p
  | acceptedValuesForKey key values case? =>
    exact opened_withParameters fun p => opened_keyedComplaints key values case? p
  | acceptsNoKeylessValues =>
    exact opened_withParameters fun p => opened_keylessComplaints [] none p
  | acceptsNoKeyedValues => exact opened_withParameters fun p => opened_keyComplaints [] p
  | validOnSubclassesOf annotated base =>
    exact opened_demand (((Opens.refl _).append _).append _) _
  | minimumCount n =>
    exact opened_withParameters fun p => opened_demand (((Opens.refl _).append _).append _) _
  | maximumCount n =>
    exact opened_withParameters fun p => opened_demand (((Opens.refl _).append _).append _) _
  | exactCount n =>
    exact opened_withParameters fun p => opened_demand (((Opens.refl _).append _).append _) _

end Rule

/-! ### Looks -/

/-- No complaint is there twice, each starts with one of the openings, and no fault is a report. -/
structure OpenedOnce (openings : List String) (cs : Complaints) : Prop where
  nodup  : (texts cs).Nodup
  opened : Opened openings cs

theorem openedOnce_nil (openings : List String) : OpenedOnce openings [] :=
  ⟨List.nodup_nil, opened_nil openings⟩

theorem openedOnce_ok {openings : List String} {words m : String} (hwords : words ∈ openings)
    (hm : Opens words m) : OpenedOnce openings [.ok m] :=
  ⟨List.pairwise_singleton _ m, opened_ok hwords hm⟩

theorem openedOnce_error (openings : List String) {f : Fault} (hf : ∀ e, f ≠ .reported e) :
    OpenedOnce openings [.error f] :=
  ⟨List.nodup_nil, opened_error openings hf⟩

theorem openedOnce_withParameters {openings : List String} {s : Subject}
    {f : Parameters → Complaints} (h : ∀ p, OpenedOnce openings (f p)) :
    OpenedOnce openings (s.withParameters f) := by
  unfold Subject.withParameters
  split
  · exact h _
  · exact openedOnce_error _ nofun

namespace Kind

variable {kind : String} {p : Option Parameters} {t : Option Target}

/-- The words that the complaints of a look at a route start with. -/
def routeOpenings (kind : String) : List String :=
  [kind ++ " requires an HTTP method and a path, got ", "The route path must be a single value."]

theorem openedOnce_lookAtRoute :
    OpenedOnce (routeOpenings kind) (lookAtRoute ⟨kind, p, t⟩) := by
  refine openedOnce_withParameters fun p => ?_
  dsimp only
  split_ifs
  · exact openedOnce_ok List.mem_cons_self (((Opens.refl _).append _).append _)
  · exact openedOnce_ok (List.mem_cons_of_mem _ List.mem_cons_self) (Opens.refl _)
  · exact openedOnce_nil _

/-- The words that the complaints of a look at a column start with. -/
def columnOpenings (kind : String) : List String :=
  [kind ++ " requires a column type.", kind ++ " takes one column type, got: "]

theorem openedOnce_lookAtColumn :
    OpenedOnce (columnOpenings kind) (lookAtColumn ⟨kind, p, t⟩) := by
  refine openedOnce_withParameters fun p => ?_
  split
  · exact openedOnce_ok List.mem_cons_self (Opens.refl _)
  · exact openedOnce_nil _
  · generalize (p.positional.filter (isWordOf columnTypes)).mapM Value.plain = types
    cases types with
    | error o => exact openedOnce_error _ nofun
    | ok types =>
      refine openedOnce_ok (List.mem_cons_of_mem _ List.mem_cons_self) ?_
      exact ((Opens.refl _).append _).append _

/-- The words that the complaint of a look at a relation starts with. -/
def relationOpenings (kind : String) : List String :=
  [kind ++ " requires exactly one relationship name."]

theorem openedOnce_lookAtRelation :
    OpenedOnce (relationOpenings kind) (lookAtRelation ⟨kind, p, t⟩) := by
  refine openedOnce_withParameters fun p => ?_
  split
  · exact openedOnce_nil _
  · exact openedOnce_ok List.mem_cons_self (Opens.refl _)

/-! ### Kinds -/

/-- The words that the complaint about an element starts with. -/
def misplacedOpening (kind : String) : String := kind ++ " is only valid on "

theorem opens_misplacedMessage (kind : String) (mask : Mask) :
    Opens (misplacedOpening kind) (Invocation.misplacedMessage kind mask) :=
  ((Opens.refl _).append _).append _

/-- A rule of a kind that complains of a key exactly where it is not declared, or starts its
complaints differently. -/
def MindsKeys (k : Kind) : Rule → Prop
  | .acceptedKeys keys    => keys.map Text.lowered = k.fields.keys
  | .acceptsNoKeyedValues => k.fields.keys = []
  | r                     => Apart Rule.unknownOpening (r.opening k.name)

instance (k : Kind) : (r : Rule) → Decidable (k.MindsKeys r)
  | .acceptedKeys keys    => inferInstanceAs (Decidable (keys.map Text.lowered = k.fields.keys))
  | .acceptsNoKeyedValues => inferInstanceAs (Decidable (k.fields.keys = []))
  | .requiredKeys _ | .acceptedKeylessValues _ _ | .acceptedIndexedValues _ _ _
  | .acceptedValuesForKey _ _ _ | .acceptsNoKeylessValues | .validOnSubclassesOf _ _
  | .minimumCount _ | .maximumCount _ | .exactCount _ => inferInstanceAs (Decidable (Apart _ _))

/-- How the checks of a kind are worded: they are rules, and one look among them at most.  The look
never says a thing twice, and starts what it says apart from the complaint about the element, from
complaints about keys, and from what the rules in front of it say. -/
inductive Worded (k : Kind) (s : Subject) : Prop
  | rules (rules : List Rule) (hchecks : k.checks = rules.map .rule)
      (hkeys : ∀ r ∈ rules, k.MindsKeys r)
  | look (before after : List Rule) (openings : List String) {look : Subject → Complaints}
      (hchecks : k.checks = before.map .rule ++ .own look :: after.map .rule)
      (hkeys : ∀ r ∈ before ++ after, k.MindsKeys r)
      (hapart : ∀ words ∈ openings, Apart (misplacedOpening k.name) words
        ∧ Apart Rule.unknownOpening words ∧ ∀ r ∈ before, Apart (r.opening k.name) words)
      (hlook : OpenedOnce openings (look s))

/-- No complaint about an element of a kind that is always there reads like one about a key. -/
theorem apart_misplaced :
    ∀ k ∈ builtins, Apart (misplacedOpening k.name) Rule.unknownOpening := by
  decide

/-- The kinds that are always there word their checks so that they can be told apart. -/
theorem worded_builtins {k : Kind} (hk : k ∈ builtins) : k.Worded ⟨k.name, p, t⟩ := by
  simp only [builtins, List.mem_cons, List.not_mem_nil, or_false] at hk
  rcases hk with rfl | rfl | rfl | rfl | rfl | rfl | rfl
  · exact .look [.acceptedKeys ["name"],
      .acceptedIndexedValues 0 (httpMethods.map .text) (some .upper)] []
      (routeOpenings route.name) rfl (by decide) (by decide) (openedOnce_lookAtRoute)
  · exact .rules [.acceptsNoKeyedValues, .exactCount 1] rfl (by decide)
  · exact .rules [.acceptsNoKeyedValues, .exactCount 1] rfl (by decide)
  · exact .rules [.acceptsNoKeyedValues, .exactCount 1] rfl (by decide)
  · exact .look [.minimumCount 1, .acceptedKeys ["nullable", "default"],
      .acceptedKeylessValues ((columnTypes ++ columnModifiers).map .text) (some .lower)] []
      (columnOpenings column.name) rfl (by decide) (by decide) (openedOnce_lookAtColumn)
  · exact .look [.acceptedKeys ["class", "key", "through", "ondelete"]]
      [.acceptedValuesForKey "ondelete" (onDeleteActions.map .text) (some .lower)]
      (relationOpenings hasMany.name) rfl (by decide) (by decide) (openedOnce_lookAtRelation)
  · exact .look [.acceptedKeys ["class", "key", "ondelete"]]
      [.acceptedValuesForKey "ondelete" (onDeleteActions.map .text) (some .lower)]
      (relationOpenings belongsTo.name) rfl (by decide) (by decide) (openedOnce_lookAtRelation)

end Kind

end DocDirective
