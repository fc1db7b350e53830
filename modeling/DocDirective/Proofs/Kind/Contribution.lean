import DocDirective.Proofs.Kind.Builtins

/-!
# Proofs — Kind — Contribution

What a directive of the kinds that are always there says about its class: it is read off its name,
its parameters and its element, whatever the descriptor is and by whichever checks and bindings the
directive comes to be carried out.  A change that goes through takes over exactly what its directive
says (`Kind.takesOver_builtins`).
-/

namespace DocDirective

/-- What one directive says about its class; a route comes with the path that is written. -/
inductive Contribution
  | routesPrefix (path : String)
  | table        (name : String)
  | source       (name : String)
  | route        (r : RouteEntry)
  | column       (c : Column)
  | relation     (r : Relation)

namespace Contribution

/-- The names of the directives that say such a thing. -/
def sayers : Contribution → List String
  | .routesPrefix _ => ["RoutesPrefix"]
  | .table _        => ["Table"]
  | .source _       => ["Source"]
  | .route _        => ["Route"]
  | .column _       => ["Column"]
  | .relation _     => ["HasMany", "BelongsTo"]

def routesPrefix? : Contribution → Option String
  | .routesPrefix path => some path
  | _                  => none

def table? : Contribution → Option String
  | .table name => some name
  | _           => none

def source? : Contribution → Option String
  | .source name => some name
  | _            => none

def route? : Contribution → Option RouteEntry
  | .route r => some r
  | _        => none

def column? : Contribution → Option Column
  | .column c => some c
  | _         => none

def relation? : Contribution → Option Relation
  | .relation r => some r
  | _           => none

/-! ### What directives say -/

/-- The text under a key. -/
def keyedText (ps : Parameters) (key : String) : Option String :=
  (ps.keyed.get? key).bind fun v => v.asText.toOption

/-- The truth value under a key. -/
def keyedTruth (ps : Parameters) (key : String) : Option Bool :=
  (ps.keyed.get? key).bind fun v => v.asTruth.toOption

/-- The column of a name and a type, with its modifiers. -/
def columnOf (name type : String) (ps : Parameters) : Column where
  name          := name
  type          := Text.lowered type
  nullable      := (keyedTruth ps "nullable").getD
    !(ps.positional.any (Kind.isWordOf ["primarykey"]))
  primaryKey    := ps.positional.any (Kind.isWordOf ["primarykey"])
  autoIncrement := ps.positional.any (Kind.isWordOf ["autoincrement"])
  default       := (ps.keyed.get? "default").getD .null

/-- The relation of a name from a class to another. -/
def relationOf (c : Kind.Convention) (className name : String) (ps : Parameters) : Relation where
  kind        := c.word
  name        := name
  targetClass := Kind.orDefault (keyedText ps "class") (c.defaultClass name)
  foreignKey  := Kind.orDefault (keyedText ps "key") (c.defaultKey name className)
  through     := keyedText ps "through"
  onDelete    := Kind.actionTitle (keyedText ps "ondelete")

/-- What the directive of a name says about an element with its parameters. -/
def of? (t : Target) (name : String) (ps : Parameters) : Option Contribution :=
  match name, ps.positional with
  | "RoutesPrefix", [v]          => v.asText.toOption.map .routesPrefix
  | "Table",        [v]          => v.asText.toOption.map .table
  | "Source",       [v]          => v.asText.toOption.map .source
  | "Route",        [.text m, v] => v.asText.toOption.map fun path =>
    .route ⟨Text.uppered m, path, t.name, keyedText ps "name"⟩
  | "Column",       vs           =>
    match vs.filter (Kind.isWordOf Kind.columnTypes) with
    | [.text type] => some (.column (columnOf t.name type ps))
    | _            => none
  | "HasMany",      [.text n]    =>
    some (.relation (relationOf Kind.hasManyConvention t.className n ps))
  | "BelongsTo",    [.text n]    =>
    some (.relation (relationOf Kind.belongsToConvention t.className n ps))
  | _,              _            => none

/-- The descriptor with what a directive says.  The path of a route goes below the path of the
class as it is by then, and the last primary key counts. -/
def accept (d : Descriptor) : Contribution → Descriptor
  | .routesPrefix path => { d with routesPrefix := Route.normalize path }
  | .table name        => { d with table := some name }
  | .source name       => { d with source := some name }
  | .route r           => d.addRoute { r with path := Route.join d.routesPrefix r.path }
  | .column c          => d.addColumn c
  | .relation r        => d.addRelation r

end Contribution

namespace Kind

open Contribution Invocation

variable {k : Kind} {ps : Parameters} {t : Target} {d d' : Descriptor}

/-! ### Bound slots -/

/-- The slots that parameters fill. -/
def boundSlots (k : Kind) (ps : Parameters) : Keyed Value :=
  (defaults k.fields).insertAll (bindings k ps).entries

/-- A change goes through, with what is bound, to a descriptor. -/
def Expands (k : Kind) (ps : Parameters) (t : Target) (d d' : Descriptor) : Prop :=
  k.expand ⟨k.name, ps.positional, boundSlots k ps, t⟩ d = (d', none)

theorem Expands.unique {d'' : Descriptor} (h : Expands k ps t d d') (h' : Expands k ps t d d'') :
    d' = d'' :=
  congrArg Prod.fst (h.symm.trans h')

/-- Where nothing is found, an expansion comes to what the change makes of the descriptor. -/
theorem expand_of_silent {mask : Mask} (hk : k ∈ builtins) (hmask : k.mask = some mask)
    (happlies : mask.contains t.kind = true)
    (hs : ∀ c ∈ k.checks, c.complaints ⟨k.name, some ps, some t⟩ = [])
    (hd : ∀ e ∈ ps.keyed.entries, Declared k.fields e) :
    (((new k ps).expand t d).descriptor, ((new k ps).expand t d).fault)
      = k.expand ⟨k.name, ps.positional, boundSlots k ps, t⟩ d := by
  have hq : ∀ c ∈ k.checks, Quiet (c.complaints ⟨k.name, some ps, some t⟩) :=
    fun c hc => quiet_of_eq_nil (hs c hc)
  have hsteady := steady_of_declared hd
  rw [expand_new hmask (shown_builtins hk) hq hsteady,
    (findings_eq_nil_iff hq hsteady).2 ⟨happlies, hs, hd⟩]
  obtain ⟨-, -, -, hchange⟩ := bindAndExpand_eq
    { new k ps with target := some t, stage := .typeChecked } ps t (bindings k ps) d
  exact hchange

/-- An expansion goes through exactly where the kind applies to the element, no check complains,
every keyed value is declared and can be converted, and the change itself goes through. -/
theorem fault_eq_none_iff {mask : Mask} (hk : k ∈ builtins) (hmask : k.mask = some mask) :
    ((new k ps).expand t d).fault = none ↔ mask.contains t.kind = true
      ∧ (∀ c ∈ k.checks, c.complaints ⟨k.name, some ps, some t⟩ = [])
      ∧ (∀ e ∈ ps.keyed.entries, Declared k.fields e)
      ∧ (k.expand ⟨k.name, ps.positional, boundSlots k ps, t⟩ d).2 = none := by
  have hsteady := steady_builtins hk ps.keyed.entries
  constructor
  · intro h
    have hq : ∀ c ∈ k.checks, Quiet (c.complaints ⟨k.name, some ps, some t⟩) := by
      by_contra hq
      obtain ⟨i, f, hexpand, -, -⟩ := expand_not_quiet (d := d) hmask (shown_builtins hk) hq
      rw [hexpand] at h
      cases h
    have hfound : findings k mask ps t = [] := by
      cases hf : findings k mask ps t with
      | nil => rfl
      | cons e es =>
        rw [expand_new hmask (shown_builtins hk) hq hsteady, hf] at h
        cases h
    obtain ⟨happlies, hs, hd⟩ := (findings_eq_nil_iff hq hsteady).1 hfound
    refine ⟨happlies, hs, hd, ?_⟩
    exact (congrArg Prod.snd (expand_of_silent hk hmask happlies hs hd)).symm.trans h
  · rintro ⟨happlies, hs, hd, h⟩
    exact (congrArg Prod.snd (expand_of_silent hk hmask happlies hs hd)).trans h

/-- The change of an expansion without a fault has gone through. -/
theorem expands_of_fault_eq_none {mask : Mask} (hk : k ∈ builtins) (hmask : k.mask = some mask)
    (h : ((new k ps).expand t d).fault = none) :
    Expands k ps t d ((new k ps).expand t d).descriptor := by
  obtain ⟨happlies, hs, hd, -⟩ := (fault_eq_none_iff hk hmask).1 h
  rw [Expands, ← expand_of_silent hk hmask happlies hs hd, h]

/-- A change that is refused leaves the descriptor as it is, and its fault is no report. -/
structure Refused (d d' : Descriptor) (f : Fault) : Prop where
  descriptor : d' = d
  unreported : ∀ e, f ≠ .reported e

theorem refused_expandText {change : String → Descriptor → Descriptor} {b : Binding} {f : Fault}
    (h : expandText change b d = (d', some f)) : Refused d d' f := by
  unfold expandText at h
  split at h
  · cases h
    exact ⟨rfl, by simp⟩
  · split at h <;> cases h
    exact ⟨rfl, by simp⟩

theorem unreported_ofUnfit {α : Type} {x : Except Unfit α} {f : Fault}
    (h : Fault.ofUnfit x = .error f) (e : AnnotationError) : f ≠ .reported e := by
  cases x <;> cases h
  simp

theorem unreported_firstTwoTexts {vs : List Value} {f : Fault}
    (h : firstTwoTexts vs = .error f) (e : AnnotationError) : f ≠ .reported e := by
  match vs with
  | [] | [_] =>
    cases h
    simp
  | a :: b :: _ =>
    obtain ha | ⟨m, -, h⟩ := error_of_bind h
    · exact unreported_ofUnfit ha e
    · obtain hb | ⟨path, -, h⟩ := error_of_bind h
      · exact unreported_ofUnfit hb e
      · cases h

/-- The kinds that are always there do all that can fail before they write. -/
theorem refused_of_fault (hk : k ∈ builtins) {b : Binding} {f : Fault}
    (h : k.expand b d = (d', some f)) : Refused d d' f := by
  simp only [builtins, List.mem_cons, List.not_mem_nil, or_false] at hk
  rcases hk with rfl | rfl | rfl | rfl | rfl | rfl | rfl
  · simp only [route, expandRoute] at h
    split at h
    · rename_i hfault
      cases h
      exact ⟨rfl, unreported_firstTwoTexts hfault⟩
    · cases h
  · simp only [Kind.routesPrefix] at h
    exact refused_expandText h
  · simp only [Kind.table] at h
    exact refused_expandText h
  · simp only [Kind.source] at h
    exact refused_expandText h
  · simp only [column, expandColumn] at h
    split at h <;> cases h
    exact ⟨rfl, by simp⟩
  · simp only [hasMany, expandRelation] at h
    exact refused_expandText h
  · simp only [belongsTo, expandRelation] at h
    exact refused_expandText h

/-- Whatever the parameters are, an expansion leaves the descriptor as it is, or it has found
nothing and its change has gone through. -/
theorem expand_cases (hk : k ∈ builtins) (ps : Parameters) (t : Target) (d : Descriptor) :
    ((new k ps).expand t d).descriptor = d
      ∨ (∀ c ∈ k.checks, c.complaints ⟨k.name, some ps, some t⟩ = [])
        ∧ (∀ e ∈ ps.keyed.entries, Declared k.fields e)
        ∧ Expands k ps t d ((new k ps).expand t d).descriptor := by
  obtain ⟨mask, hmask⟩ := exists_mask hk
  cases hfault : ((new k ps).expand t d).fault with
  | none =>
    obtain ⟨-, hs, hd, -⟩ := (fault_eq_none_iff hk hmask).1 hfault
    exact .inr ⟨hs, hd, expands_of_fault_eq_none hk hmask hfault⟩
  | some f =>
    refine .inl ?_
    by_cases hq : ∀ c ∈ k.checks, Quiet (c.complaints ⟨k.name, some ps, some t⟩)
    · rw [expand_new hmask (shown_builtins hk) hq (steady_builtins hk _)] at hfault ⊢
      split at hfault
      · obtain ⟨-, -, -, hchange⟩ := bindAndExpand_eq
          { new k ps with target := some t, stage := .typeChecked } ps t (bindings k ps) d
        exact (refused_of_fault hk (hchange.symm.trans (congrArg _ hfault))).descriptor
      · rfl
    · obtain ⟨i, f, hexpand, -, -⟩ := expand_not_quiet (d := d) hmask (shown_builtins hk) hq
      exact congrArg Expansion.descriptor hexpand

theorem nodup_slots (hk : k ∈ builtins) : (k.fields.values.map (·.slot)).Nodup := by
  simp only [builtins, List.mem_cons, List.not_mem_nil, or_false] at hk
  rcases hk with rfl | rfl | rfl | rfl | rfl | rfl | rfl <;> decide

theorem slot_bound (hk : k ∈ builtins) (hd : ∀ e ∈ ps.keyed.entries, Declared k.fields e)
    {key : String} {f : Field} (hf : k.fields.get? key = some f) :
    Binding.slot ⟨k.name, ps.positional, boundSlots k ps, t⟩ f.slot
      = (filled f (ps.keyed.get? key)).getD .null := by
  rw [Binding.slot, boundSlots, slots_get? (nodup_slots hk) hd hf]

section Slots

variable (hk : k ∈ builtins) (hd : ∀ e ∈ ps.keyed.entries, Declared k.fields e)

include hk hd

theorem slotText_bound {key slot : String} {free : Field.isFree slot .null = true}
    (hf : k.fields.get? key = some ⟨slot, .text, .null, free⟩) :
    slotText ⟨k.name, ps.positional, boundSlots k ps, t⟩ slot = keyedText ps key := by
  have hslot := slot_bound (t := t) hk hd hf
  rw [slotText, hslot, keyedText]
  cases ps.keyed.get? key with
  | none => rfl
  | some v =>
    simp only [filled, Converter.text, Option.bind_some]
    cases v.asText <;> rfl

theorem slotTruth_bound {key slot : String} {free : Field.isFree slot .null = true}
    (hf : k.fields.get? key = some ⟨slot, .truth, .null, free⟩) :
    Binding.slot ⟨k.name, ps.positional, boundSlots k ps, t⟩ slot
      = ((keyedTruth ps key).map .bool).getD .null := by
  have hslot := slot_bound (t := t) hk hd hf
  rw [hslot, keyedTruth]
  cases ps.keyed.get? key with
  | none => rfl
  | some v =>
    simp only [filled, Converter.truth, Option.bind_some]
    cases v.asTruth <;> rfl

theorem slotAny_bound {key slot : String} {free : Field.isFree slot .null = true}
    (hf : k.fields.get? key = some ⟨slot, .any, .null, free⟩) :
    Binding.slot ⟨k.name, ps.positional, boundSlots k ps, t⟩ slot
      = (ps.keyed.get? key).getD .null := by
  have hslot := slot_bound (t := t) hk hd hf
  rw [hslot]
  cases ps.keyed.get? key <;> rfl

omit hk in
theorem get?_undeclared {key : String} (hf : k.fields.get? key = none) :
    ps.keyed.get? key = none := by
  cases hv : ps.keyed.get? key with
  | none => rfl
  | some v =>
    obtain ⟨f, w, hget, -⟩ := hd _ (Keyed.get?_eq_some_iff.1 hv)
    cases hf.symm.trans hget

/-- No text is found in a slot, or under a key, that the kind does not declare. -/
theorem slotText_undeclared {key slot : String} (hf : k.fields.get? key = none)
    (hslot : slot ∉ k.fields.values.map (·.slot)) :
    slotText ⟨k.name, ps.positional, boundSlots k ps, t⟩ slot = keyedText ps key := by
  have hdefaults : slot ∉ (k.fields.values.map fun f => (f.slot, f.default)).map (·.1) := by
    rwa [List.map_map]
  have hbound : slot ∉ (bindings k ps).entries.map (·.1) := by
    rw [entries_bindings (nodup_slots hk)]
    intro hm
    obtain ⟨⟨slot', w⟩, hb, rfl⟩ := List.mem_map.1 hm
    obtain ⟨e, -, f, hget, -, rfl⟩ := mem_converted_iff.1 hb
    exact hslot (List.mem_map.2 ⟨f, Keyed.mem_values_of_get? hget, rfl⟩)
  have hnone : (boundSlots k ps).get? slot = none := by
    rw [boundSlots, Keyed.get?_insertAll_of_not_mem hbound]
    exact (Keyed.get?_insertAll_of_not_mem (t := .empty) hdefaults).trans rfl
  rw [slotText, Binding.slot, hnone, keyedText, get?_undeclared hd hf]
  rfl

end Slots

/-! ### Changes that go through -/

/-- A change takes over what the directive says. -/
def TakesOver (t : Target) (name : String) (ps : Parameters) (d d' : Descriptor) : Prop :=
  ∃ c, of? t name ps = some c ∧ name ∈ c.sayers ∧ d' = c.accept d

/-- A single name that goes through is taken over. -/
theorem takesOver_name {name : String} {change : String → Descriptor → Descriptor}
    {say : String → Contribution}
    (hs : ∀ c ∈ k.checks, c.complaints ⟨k.name, some ps, some t⟩ = []) (h : Expands k ps t d d')
    (hchecks : k.checks = [.rule .acceptsNoKeyedValues, .rule (.exactCount 1)])
    (hexpand : k.expand = expandText change)
    (hsay : ∀ v, of? t name ⟨[v], .empty⟩ = v.asText.toOption.map say)
    (hsayer : ∀ s, name ∈ (say s).sayers) (haccept : ∀ s, change s d = (say s).accept d) :
    TakesOver t name ps d d' := by
  have hkeyed : Rule.acceptsNoKeyedValues.Holds ps t := holds_of_silent hs (by simp [hchecks])
  have hcount : (Rule.exactCount 1).Holds ps t := holds_of_silent hs (by simp [hchecks])
  obtain ⟨v, rfl⟩ := single_of_name hkeyed hcount
  rw [Expands, hexpand] at h
  cases hv : v.asText with
  | ok s =>
    rw [expandText_ok hv] at h
    refine ⟨say s, ?_, hsayer s, (congrArg Prod.fst h).symm.trans (haccept s)⟩
    rw [hsay, hv]
    rfl
  | error u =>
    simp only [expandText, hv] at h
    cases h

section Changes

variable (hd : ∀ e ∈ ps.keyed.entries, Declared k.fields e)

include hd

theorem expands_route (hk : k = route) {m path : String} {v : Value}
    (hvalues : ps.positional = [.text m, v]) (hpath : v.asText = .ok path) :
    Expands k ps t d (d.addRoute
      ⟨Text.uppered m, Route.join d.routesPrefix path, t.name, keyedText ps "name"⟩) := by
  subst hk
  have hname := slotText_bound (t := t) (by simp [builtins]) hd
    (rfl : route.fields.get? "name" = some ⟨"route_name", .text, .null, by decide⟩)
  rw [hvalues] at hname
  simp only [Expands, route, expandRoute, hvalues, firstTwoTexts_ok hpath]
  rw [← hname]
  rfl

theorem expands_column (hk : k = column) {type : String}
    (hwords : ∀ v ∈ ps.positional,
      ∃ s, v = .text s ∧ Text.lowered s ∈ columnTypes ++ columnModifiers)
    (htype : ps.positional.filter (isWordOf columnTypes) = [.text type]) :
    Expands k ps t d (d.addColumn (columnOf t.name type ps)) := by
  subst hk
  have hk : column ∈ builtins := by simp [builtins]
  have htext := columnTypeText_eq hwords htype
  have hnullable := slotTruth_bound (t := t) hk hd
    (rfl : column.fields.get? "nullable" = some ⟨"nullable", .truth, .null, by decide⟩)
  have hdefault := slotAny_bound (t := t) hk hd
    (rfl : column.fields.get? "default" = some ⟨"default", .any, .null, by decide⟩)
  show expandColumn _ d = _
  simp only [expandColumn, htext, hnullable, hdefault, columnOf]
  cases keyedTruth ps "nullable" <;> rfl

/-- Some kinds of relations have no key for a class in between. -/
theorem Relates.expands {c : Convention} (hr : Relates k c) {n : String}
    (hname : ps.positional = [.text n]) :
    Expands k ps t d (d.addRelation (relationOf c t.className n ps)) := by
  have hadds (hclass : k.fields.get? "class" = some ⟨"related_class", .text, .null, by decide⟩)
      (hkey : k.fields.get? "key" = some ⟨"foreign_key", .text, .null, by decide⟩)
      (hdelete : k.fields.get? "ondelete" = some ⟨"on_delete", .text, .null, by decide⟩)
      (hthrough : slotText ⟨k.name, ps.positional, boundSlots k ps, t⟩ "through"
        = keyedText ps "through") :
      Expands k ps t d (d.addRelation (relationOf c t.className n ps)) := by
    have htext : (Value.text n).asText = .ok n := rfl
    rw [Expands, hr.expand_eq, expandRelation, slotText_bound hr.mem hd hclass,
      slotText_bound hr.mem hd hkey, slotText_bound hr.mem hd hdelete, hthrough, hname,
      expandText_ok htext]
    rfl
  cases hr with
  | hasMany => exact hadds rfl rfl rfl (slotText_bound Relates.hasMany.mem hd rfl)
  | belongsTo =>
    exact hadds rfl rfl rfl (slotText_undeclared Relates.belongsTo.mem hd rfl (by decide))

end Changes

section Silent

variable (hd : ∀ e ∈ ps.keyed.entries, Declared k.fields e)
  (hs : ∀ c ∈ k.checks, c.complaints ⟨k.name, some ps, some t⟩ = [])
  (h : Expands k ps t d d')

include hd hs h

theorem takesOver_route (hk : k = route) : TakesOver t "Route" ps d d' := by
  subst hk
  obtain ⟨-, m, v, hvalues, -, -⟩ := silent_route_iff.1 hs
  obtain ⟨path, hpath⟩ : ∃ path, v.asText = .ok path := by
    cases hv : v.asText with
    | ok path => exact ⟨path, rfl⟩
    | error u =>
      have htexts : firstTwoTexts [.text m, v] = .error (.unfit u) := by
        simp only [firstTwoTexts, hv]
        rfl
      simp only [Expands, route, expandRoute, hvalues, htexts] at h
      cases h
  refine ⟨.route ⟨Text.uppered m, path, t.name, keyedText ps "name"⟩, ?_, List.mem_cons_self,
    h.unique (expands_route hd rfl hvalues hpath)⟩
  rw [of?.eq_def, hvalues]
  simp only [hpath]
  rfl

theorem takesOver_column (hk : k = column) : TakesOver t "Column" ps d d' := by
  subst hk
  obtain ⟨-, hwords, type, htype⟩ := silent_column_iff.1 hs
  refine ⟨.column (columnOf t.name type ps), ?_, List.mem_cons_self,
    h.unique (expands_column hd rfl hwords htype)⟩
  rw [of?.eq_def]
  simp only [htype]

theorem Relates.takesOver {name : String} {c : Convention} (hr : Relates k c)
    (hsay : ∀ n keyed, of? t name ⟨[.text n], keyed⟩
      = some (.relation (relationOf c t.className n ⟨[.text n], keyed⟩)))
    (hsayer : name ∈ ["HasMany", "BelongsTo"]) : TakesOver t name ps d d' := by
  obtain ⟨values, keyed⟩ := ps
  obtain ⟨-, ⟨n, rfl⟩, -⟩ := hr.silent_iff.1 hs
  exact ⟨_, hsay n keyed, hsayer, h.unique (hr.expands hd rfl)⟩

end Silent

/-- **A change that goes through behind its checks takes over what the directive says.** -/
theorem takesOver_builtins {name : String} (hk : k ∈ builtins) (hname : k.name = name ++ suffix)
    (hd : ∀ e ∈ ps.keyed.entries, Declared k.fields e)
    (hs : ∀ c ∈ k.checks, c.complaints ⟨k.name, some ps, some t⟩ = [])
    (h : Expands k ps t d d') : TakesOver t name ps d d' := by
  have hcut {s : String} (hs : k.name = s ++ suffix) : name = s :=
    (String.append_left_inj suffix).1 (hname.symm.trans hs)
  have hmem := hk
  simp only [builtins, List.mem_cons, List.not_mem_nil, or_false] at hmem
  rcases hmem with rfl | rfl | rfl | rfl | rfl | rfl | rfl
  · obtain rfl := hcut (s := "Route") rfl
    exact takesOver_route hd hs h rfl
  · obtain rfl := hcut (s := "RoutesPrefix") rfl
    exact takesOver_name hs h rfl rfl (fun _ => rfl) (fun _ => List.mem_cons_self)
      fun _ => rfl
  · obtain rfl := hcut (s := "Table") rfl
    exact takesOver_name hs h rfl rfl (fun _ => rfl) (fun _ => List.mem_cons_self)
      fun _ => rfl
  · obtain rfl := hcut (s := "Source") rfl
    exact takesOver_name hs h rfl rfl (fun _ => rfl) (fun _ => List.mem_cons_self)
      fun _ => rfl
  · obtain rfl := hcut (s := "Column") rfl
    exact takesOver_column hd hs h rfl
  · obtain rfl := hcut (s := "HasMany") rfl
    exact Relates.hasMany.takesOver hd hs h (fun _ _ => rfl) (by simp)
  · obtain rfl := hcut (s := "BelongsTo") rfl
    exact Relates.belongsTo.takesOver hd hs h (fun _ _ => rfl) (by simp)

end Kind

end DocDirective
