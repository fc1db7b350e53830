import DocDirective.Proofs.Kind.Proper
import DocDirective.Proofs.Value.Conversion

/-!
# Proofs — Kind — Acceptance

Which directives of columns, routes and relations go through, and what they add to the descriptor
(`expand_column`, `expand_route`, `expand_relation`).  The checks of a kind and the conversions of
its keys come to one condition on the element and the parameters.  Where it holds, the change finds
every value that it needs, so that the condition is exact (`expand_of_accepts`).
-/

namespace DocDirective

/-! ### What a key gives -/

/-- Every whole number in the parameters has no more digits than the limit. -/
def Parameters.Writable (ps : Parameters) : Prop := ∀ v ∈ ps.values, v.Writable

/-- What a key gives: what is read of the value under it, or a default where the key is missing. -/
inductive Parameters.Gives {α : Type} (ps : Parameters) (key : String) (reads : Value → α → Prop)
    (standard : α) : α → Prop
  | missing (h : ps.keyed.get? key = none) : Gives ps key reads standard standard
  | given {v : Value} {a : α} (h : ps.keyed.get? key = some v) (ha : reads v a) :
      Gives ps key reads standard a

/-- The text of a value. -/
def Value.GivesText (v : Value) (s? : Option String) : Prop :=
  ∃ s, v.asText = .ok s ∧ s? = some s

/-- The text of a value if it is not empty, and a default otherwise. -/
def Value.GivesName (standard : String) (v : Value) (name : String) : Prop :=
  v.asText = .ok name ∧ name ≠ "" ∨ v.asText = .ok "" ∧ name = standard

/-- The action that a word in any case names, as it is recorded. -/
def Value.GivesAction (v : Value) (title? : Option String) : Prop :=
  ∃ s title, v = .text s ∧ (Text.lowered s, title) ∈ Kind.actionTitles ∧ title? = some title

section Keys

variable {ps : Parameters} {key : String}

theorem Parameters.Writable.keyed {v : Value} (h : ps.Writable) (hv : v ∈ ps.keyed.values) :
    v.Writable :=
  h v (List.mem_append_left _ hv)

theorem Parameters.Writable.positional {v : Value} (h : ps.Writable) (hv : v ∈ ps.positional) :
    v.Writable :=
  h v (List.mem_append_right _ hv)

open Contribution

/-- A truth value is given by a key, unless the key is missing. -/
theorem gives_truth (h : ∀ v, ps.keyed.get? key = some v → ∃ b, v.Truth b) (standard : Bool) :
    ps.Gives key Value.Truth standard ((keyedTruth ps key).getD standard) := by
  rw [keyedTruth]
  cases hv : ps.keyed.get? key with
  | none => exact .missing hv
  | some v =>
    obtain ⟨b, hb⟩ := h v hv
    rw [Option.bind_some, Value.asTruth_eq_ok_iff.2 hb]
    exact .given hv hb

theorem gives_any (standard : Value) :
    ps.Gives key (· = ·) standard ((ps.keyed.get? key).getD standard) := by
  cases hv : ps.keyed.get? key with
  | none => exact .missing hv
  | some v => exact .given hv rfl

section Texts

variable (h : ∀ v, ps.keyed.get? key = some v → ∃ s, v.asText = .ok s)

include h

theorem keyedText_cases : ps.keyed.get? key = none ∧ keyedText ps key = none
    ∨ ∃ v s, ps.keyed.get? key = some v ∧ v.asText = .ok s ∧ keyedText ps key = some s := by
  rw [keyedText]
  cases hv : ps.keyed.get? key with
  | none => exact .inl ⟨rfl, rfl⟩
  | some v =>
    obtain ⟨s, hs⟩ := h v hv
    exact .inr ⟨v, s, rfl, hs, by rw [Option.bind_some, hs, Except.toOption]⟩

theorem gives_text : ps.Gives key Value.GivesText none (keyedText ps key) := by
  obtain ⟨hv, htext⟩ | ⟨v, s, hv, hs, htext⟩ := keyedText_cases h
  · rw [htext]
    exact .missing hv
  · exact .given hv ⟨s, hs, htext⟩

theorem gives_name (standard : String) : ps.Gives key (Value.GivesName standard) standard
    (Kind.orDefault (keyedText ps key) standard) := by
  obtain ⟨hv, htext⟩ | ⟨v, s, hv, hs, htext⟩ := keyedText_cases h
  · rw [htext]
    exact .missing hv
  · rw [htext, Kind.orDefault]
    refine .given hv ?_
    split_ifs with hempty
    · obtain rfl := String.isEmpty_iff.1 hempty
      exact .inr ⟨hs, rfl⟩
    · exact .inl ⟨hs, fun hs' => hempty (String.isEmpty_iff.2 hs')⟩

end Texts

theorem gives_action (h : ∀ v, ps.keyed.get? key = some v →
      ∃ s, v = .text s ∧ Text.lowered s ∈ Kind.onDeleteActions) :
    ps.Gives key Value.GivesAction none (Kind.actionTitle (keyedText ps key)) := by
  rw [keyedText]
  cases hv : ps.keyed.get? key with
  | none => exact .missing hv
  | some v =>
    obtain ⟨s, rfl, hs⟩ := h v hv
    obtain ⟨title, htitle, -⟩ := Kind.exists_title hs
    exact .given hv ⟨s, title, rfl, htitle, Kind.actionTitle_of_lowered htitle rfl⟩

end Keys

namespace Kind

open Contribution Invocation

variable {k : Kind} {ps : Parameters} {t : Target} {d : Descriptor} {key : String}

/-! ### Conditions that decide -/

/-- A condition decides over an expansion if it is what the checks and the conversions ask for and
if the change always goes through behind it. -/
theorem expand_of_accepts {α : Type} {mask : Mask} {accepts : Prop} {reads : α → Prop}
    {add : α → Descriptor} (hk : k ∈ builtins) (hmask : k.mask = some mask)
    (haccepts : accepts ↔ mask.contains t.kind = true
      ∧ (∀ c ∈ k.checks, c.complaints ⟨k.name, some ps, some t⟩ = [])
      ∧ ∀ e ∈ ps.keyed.entries, Declared k.fields e)
    (hreads : accepts → ∃ a, reads a ∧ Expands k ps t d (add a)) :
    let x := (new k ps).expand t d
    (x.fault = none ↔ accepts) ∧ (x.fault = none → ∃ a, reads a ∧ x.descriptor = add a) := by
  intro x
  have hiff : x.fault = none ↔ accepts := by
    rw [fault_eq_none_iff hk hmask]
    constructor
    · rintro ⟨happlies, hs, hd, -⟩
      exact haccepts.2 ⟨happlies, hs, hd⟩
    · intro h
      obtain ⟨happlies, hs, hd⟩ := haccepts.1 h
      obtain ⟨a, -, hexpands⟩ := hreads h
      exact ⟨happlies, hs, hd, congrArg Prod.snd hexpands⟩
  refine ⟨hiff, fun h => ?_⟩
  obtain ⟨a, ha, hexpands⟩ := hreads (hiff.1 h)
  exact ⟨a, ha, (expands_of_fault_eq_none hk hmask h).unique hexpands⟩

/-- Where every key is converted to its text, a value under a declared key has one. -/
theorem asText_of_declared {fields : Keyed Field} (hfields : ∀ f ∈ fields.values, f.convert = .text)
    {e : String × Value} (h : Declared fields e) : ∃ s, e.2.asText = .ok s := by
  obtain ⟨f, w, hf, hw⟩ := h
  rw [hfields f (Keyed.mem_values_of_get? hf)] at hw
  cases hs : e.2.asText with
  | ok s => exact ⟨s, rfl⟩
  | error u => simp [Converter.text, hs, Except.map] at hw

/-- Where every key is converted to its text, the keyed values are accepted if their keys are
declared and none of them is a list. -/
theorem declared_iff_of_texts {fields : Keyed Field} (hps : ps.Writable)
    (hfields : ∀ f ∈ fields.values, f.convert = .text) :
    (∀ e ∈ ps.keyed.entries, Declared fields e)
      ↔ (∀ key ∈ ps.keyed.keys, key ∈ fields.keys) ∧ ∀ v ∈ ps.keyed.values, v.isList = false := by
  have hone {e : String × Value} (he : e ∈ ps.keyed.entries) :
      Declared fields e ↔ e.1 ∈ fields.keys ∧ e.2.isList = false := by
    rw [← Value.asText_iff_of_writable (hps.keyed (List.mem_map.2 ⟨e, he, rfl⟩))]
    constructor
    · intro h
      have htext := asText_of_declared hfields h
      obtain ⟨f, w, hf, -⟩ := h
      exact ⟨Keyed.mem_keys_of_get? hf, htext⟩
    · rintro ⟨hkey, s, hs⟩
      obtain ⟨⟨key, f⟩, hentry, rfl⟩ := List.mem_map.1 hkey
      have hf := Keyed.get?_eq_some_iff.2 hentry
      refine ⟨f, .text s, hf, ?_⟩
      rw [hfields f (Keyed.mem_values_of_get? hf)]
      simp [Converter.text, hs, Except.map]
  rw [Keyed.keys, Keyed.values, List.forall_mem_map, List.forall_mem_map, ← forall₂_and]
  exact forall₂_congr fun e he => hone he

/-- Keyed values that are no lists have texts. -/
theorem asText_of_single {v : Value} (hps : ps.Writable)
    (hsingle : ∀ v ∈ ps.keyed.values, v.isList = false) (h : ps.keyed.get? key = some v) :
    ∃ s, v.asText = .ok s :=
  have hv := Keyed.mem_values_of_get? h
  (Value.asText_iff_of_writable (hps.keyed hv)).2 (hsingle v hv)

/-! ### Columns -/

/-- The element and the parameters of a column. -/
structure AcceptsColumn (t : Target) (ps : Parameters) : Prop where
  applies  : t.kind = .ofProperty
  keys     : ∀ key ∈ ps.keyed.keys, key ∈ ["nullable", "default"]
  nullable : ∀ v, ps.keyed.get? "nullable" = some v → ∃ b, v.Truth b
  words    : ∀ v ∈ ps.positional,
    ∃ s, v = .text s ∧ Text.lowered s ∈ columnTypes ++ columnModifiers
  type     : ps.positional.countP (isWordOf columnTypes) = 1

/-- The column that parameters tell of a property. -/
structure ReadsColumn (t : Target) (ps : Parameters) (c : Column) : Prop where
  name          : c.name = t.name
  type          : ∃ s, .text s ∈ ps.positional ∧ Text.lowered s ∈ columnTypes
    ∧ c.type = Text.lowered s
  nullable      : ps.Gives "nullable" Value.Truth (!c.primaryKey) c.nullable
  primaryKey    : c.primaryKey = true
    ↔ ∃ s, .text s ∈ ps.positional ∧ Text.lowered s = "primarykey"
  autoIncrement : c.autoIncrement = true
    ↔ ∃ s, .text s ∈ ps.positional ∧ Text.lowered s = "autoincrement"
  default       : ps.Gives "default" (· = ·) .null c.default

theorem any_isWordOf_iff {vs : List Value} {word : String} :
    vs.any (isWordOf [word]) = true ↔ ∃ s, .text s ∈ vs ∧ Text.lowered s = word := by
  rw [List.any_eq_true]
  constructor
  · rintro ⟨v, hv, hword⟩
    obtain ⟨s, rfl⟩ := isText_of_isWordOf hword
    exact ⟨s, hv, by simpa [isWordOf] using hword⟩
  · rintro ⟨s, hs, rfl⟩
    exact ⟨_, hs, by simp [isWordOf]⟩

theorem declared_column_iff {e : String × Value} : Declared column.fields e
    ↔ e.1 ∈ ["nullable", "default"] ∧ (e.1 = "nullable" → ∃ b, e.2.Truth b) := by
  have hentries : column.fields.entries
      = [("nullable", { slot := "nullable", convert := .truth }),
        ("default", { slot := "default" })] := rfl
  obtain ⟨key, v⟩ := e
  simp only [Declared, Keyed.get?_eq_some_iff, hentries, List.mem_cons, Prod.mk.injEq,
    List.not_mem_nil, or_false]
  constructor
  · rintro ⟨f, w, ⟨rfl, rfl⟩ | ⟨rfl, rfl⟩, hw⟩
    · refine ⟨.inl rfl, fun _ => ?_⟩
      cases hb : v.asTruth with
      | ok b => exact ⟨b, Value.asTruth_eq_ok_iff.1 hb⟩
      | error u => simp [Converter.truth, hb, Except.map] at hw
    · exact ⟨.inr rfl, fun h => absurd h (by decide)⟩
  · rintro ⟨rfl | rfl, hnullable⟩
    · obtain ⟨b, hb⟩ := hnullable rfl
      refine ⟨_, .bool b, .inl ⟨rfl, rfl⟩, ?_⟩
      simp [Converter.truth, Value.asTruth_eq_ok_iff.2 hb, Except.map]
    · exact ⟨_, v, .inr ⟨rfl, rfl⟩, rfl⟩

/-- What the checks and the conversions of a column ask for. -/
theorem acceptsColumn_iff : AcceptsColumn t ps
    ↔ Mask.contains ⟨ElementKind.ofProperty.bit⟩ t.kind = true
      ∧ (∀ c ∈ column.checks, c.complaints ⟨column.name, some ps, some t⟩ = [])
      ∧ ∀ e ∈ ps.keyed.entries, Declared column.fields e := by
  rw [Mask.contains_bit_iff, silent_column_iff, ← countP_isWordOf_eq_one_iff]
  constructor
  · rintro ⟨happlies, hkeys, hnullable, hwords, htype⟩
    refine ⟨happlies, ⟨hkeys, hwords, htype⟩, fun ⟨key, v⟩ he => declared_column_iff.2 ⟨?_, ?_⟩⟩
    · exact hkeys key (List.mem_map.2 ⟨_, he, rfl⟩)
    · rintro rfl
      exact hnullable v (Keyed.get?_eq_some_iff.2 he)
  · rintro ⟨happlies, ⟨hkeys, hwords, htype⟩, hd⟩
    refine ⟨happlies, hkeys, fun v hv => ?_, hwords, htype⟩
    exact (declared_column_iff.1 (hd _ (Keyed.get?_eq_some_iff.1 hv))).2 rfl

theorem AcceptsColumn.reads (h : AcceptsColumn t ps) {type : String}
    (htype : ps.positional.filter (isWordOf columnTypes) = [.text type]) :
    ReadsColumn t ps (columnOf t.name type ps) where
  name          := rfl
  type          := by
    obtain ⟨hmem, hword⟩ := mem_of_filter_isWordOf htype
    exact ⟨type, hmem, hword, rfl⟩
  nullable      := gives_truth h.nullable _
  primaryKey    := any_isWordOf_iff
  autoIncrement := any_isWordOf_iff
  default       := gives_any .null

/-- **Columns.**  A column goes through exactly where the element is a property, the keys are those
of a column with a truth value under `nullable`, and the values without a key are words of columns
with one type among them.  It adds the column that its parameters tell, and a primary key takes the
place of an earlier one. -/
theorem expand_column (ps : Parameters) (t : Target) (d : Descriptor) :
    let x := (new column ps).expand t d
    (x.fault = none ↔ AcceptsColumn t ps)
      ∧ (x.fault = none → ∃ c, ReadsColumn t ps c ∧ x.descriptor = { d with
        columns    := d.columns ++ [c]
        primaryKey := if c.primaryKey = true then some t.name else d.primaryKey }) := by
  intro x
  refine expand_of_accepts (by simp [builtins]) rfl acceptsColumn_iff fun h => ?_
  obtain ⟨-, -, hd⟩ := acceptsColumn_iff.1 h
  obtain ⟨type, htype⟩ := countP_isWordOf_eq_one_iff.1 h.type
  exact ⟨columnOf t.name type ps, h.reads htype, expands_column hd rfl h.words htype⟩

/-- The type is found wherever it stands among the modifiers. -/
example :
    let ps : Parameters := ⟨[.text "PrimaryKey", .text "Integer"], .empty⟩
    let x := (new column ps).expand (limitTarget .ofProperty) { className := "User" }
    x.fault = none ∧ x.descriptor.columns.map (·.type) = ["integer"] := by
  decide +kernel

/-! ### Routes -/

/-- The element and the parameters of a route. -/
structure AcceptsRoute (t : Target) (ps : Parameters) : Prop where
  applies : t.kind = .ofMethod
  keys    : ∀ key ∈ ps.keyed.keys, key = "name"
  single  : ∀ v ∈ ps.keyed.values, v.isList = false
  values  : ∃ m v, ps.positional = [.text m, v] ∧ Text.uppered m ∈ httpMethods
    ∧ v.isList = false

/-- The route that parameters tell of a method, below the path of its class. -/
structure ReadsRoute (above : String) (t : Target) (ps : Parameters) (r : RouteEntry) : Prop where
  values : ∃ m v path, ps.positional = [.text m, v] ∧ v.asText = .ok path
    ∧ r.method = Text.uppered m ∧ r.path = Route.join above path
  action : r.action = t.name
  name   : ps.Gives "name" Value.GivesText none r.name

theorem declared_route_iff (hps : ps.Writable) :
    (∀ e ∈ ps.keyed.entries, Declared route.fields e)
      ↔ (∀ key ∈ ps.keyed.keys, key = "name") ∧ ∀ v ∈ ps.keyed.values, v.isList = false := by
  have hvalues : route.fields.values = [{ slot := "route_name", convert := .text }] := rfl
  have hkeys : route.fields.keys = ["name"] := rfl
  rw [declared_iff_of_texts hps (by simp [hvalues]), hkeys]
  simp only [List.mem_singleton]

/-- What the checks and the conversions of a route ask for. -/
theorem acceptsRoute_iff (hps : ps.Writable) : AcceptsRoute t ps
    ↔ Mask.contains ⟨ElementKind.ofMethod.bit⟩ t.kind = true
      ∧ (∀ c ∈ route.checks, c.complaints ⟨route.name, some ps, some t⟩ = [])
      ∧ ∀ e ∈ ps.keyed.entries, Declared route.fields e := by
  have hkeys : route.fields.keys = ["name"] := rfl
  rw [Mask.contains_bit_iff, silent_route_iff, declared_route_iff hps, hkeys]
  simp only [List.mem_singleton]
  constructor
  · rintro ⟨happlies, hkeys, hsingle, hvalues⟩
    exact ⟨happlies, ⟨hkeys, hvalues⟩, hkeys, hsingle⟩
  · rintro ⟨happlies, ⟨hkeys, hvalues⟩, -, hsingle⟩
    exact ⟨happlies, hkeys, hsingle, hvalues⟩

/-- **Routes.**  A route goes through exactly where the element is a method, the only key is
`name`, with a value that is no list, and the values without a key are a method and a path that is
no list.  It adds the route that its parameters tell. -/
theorem expand_route {ps : Parameters} (hps : ps.Writable) (t : Target) (d : Descriptor) :
    let x := (new route ps).expand t d
    (x.fault = none ↔ AcceptsRoute t ps)
      ∧ (x.fault = none → ∃ r, ReadsRoute d.routesPrefix t ps r
        ∧ x.descriptor = { d with routes := d.routes ++ [r] }) := by
  intro x
  refine expand_of_accepts (by simp [builtins]) rfl (acceptsRoute_iff hps) fun h => ?_
  obtain ⟨-, -, hd⟩ := (acceptsRoute_iff hps).1 h
  obtain ⟨m, v, hvalues, -, hv⟩ := h.values
  have hwritable : v.Writable := hps.positional (by simp [hvalues])
  obtain ⟨path, hpath⟩ := (Value.asText_iff_of_writable hwritable).2 hv
  refine ⟨⟨Text.uppered m, Route.join d.routesPrefix path, t.name, keyedText ps "name"⟩, ?_,
    expands_route hd rfl hvalues hpath⟩
  exact {
    values := ⟨m, v, path, hvalues, hpath, rfl, rfl⟩
    action := rfl
    name   := gives_text fun _ => asText_of_single hps h.single }

/-- The parameters of `!Route get, users/$id, name: users.show`. -/
def showUser : Parameters :=
  ⟨[.text "get", .text "users/$id"], .ofList [("name", .text "users.show")]⟩

theorem expand_route_showUser :
    let x := (new route showUser).expand (limitTarget .ofMethod) { className := "User" }
    showUser.Writable ∧ x.fault = none
      ∧ ∃ r, r.method = "GET" ∧ x.descriptor = { className := "User", routes := [r] } := by
  intro x
  have hps : showUser.Writable := by
    intro v hv
    have hvalues : showUser.values = [.text "users.show", .text "get", .text "users/$id"] := rfl
    simp only [hvalues, List.mem_cons, List.not_mem_nil, or_false] at hv
    rcases hv with rfl | rfl | rfl <;> exact .text _
  have haccepts : AcceptsRoute (limitTarget .ofMethod) showUser := by
    refine ⟨rfl, ?_, ?_, "get", .text "users/$id", rfl, ?_, rfl⟩
    · simp [show showUser.keyed.keys = ["name"] from rfl]
    · simp [show showUser.keyed.values = [.text "users.show"] from rfl, Value.isList]
    · decide
  obtain ⟨hiff, hreads⟩ := expand_route hps (limitTarget .ofMethod) { className := "User" }
  have hfault := hiff.2 haccepts
  obtain ⟨r, hr, hdescriptor⟩ := hreads hfault
  obtain ⟨m, v, path, hvalues, -, hmethod, -⟩ := hr.values
  obtain rfl : "get" = m := by
    cases hvalues
    rfl
  exact ⟨hps, hfault, r, hmethod.trans (by decide), hdescriptor⟩

/-! ### Relations -/

/-- The element and the parameters of a relation. -/
structure AcceptsRelation (k : Kind) (t : Target) (ps : Parameters) : Prop where
  applies  : t.kind = .ofClass
  keys     : ∀ key ∈ ps.keyed.keys, key ∈ k.fields.keys
  single   : ∀ v ∈ ps.keyed.values, v.isList = false
  onDelete : ∀ v, ps.keyed.get? "ondelete" = some v →
    ∃ s, v = .text s ∧ Text.lowered s ∈ onDeleteActions
  name     : ∃ n, ps.positional = [.text n]

/-- The relation that parameters tell of a class, by the convention of its kind. -/
structure ReadsRelation (c : Convention) (t : Target) (ps : Parameters) (r : Relation) :
    Prop where
  kind        : r.kind = c.word
  name        : ps.positional = [.text r.name]
  targetClass : ps.Gives "class" (Value.GivesName (c.defaultClass r.name)) (c.defaultClass r.name)
    r.targetClass
  foreignKey  : ps.Gives "key" (Value.GivesName (c.defaultKey r.name t.className))
    (c.defaultKey r.name t.className) r.foreignKey
  through     : ps.Gives "through" Value.GivesText none r.through
  onDelete    : ps.Gives "ondelete" Value.GivesAction none r.onDelete

namespace Relates

variable {c : Convention} (hr : Relates k c)

include hr

theorem mask_eq : k.mask = some ⟨ElementKind.ofClass.bit⟩ := by
  cases hr <;> rfl

theorem convert_eq : ∀ f ∈ k.fields.values, f.convert = .text := by
  intro f hf
  have hconvert : f.convert ∈ k.fields.values.map (·.convert) := List.mem_map_of_mem hf
  cases hr with
  | hasMany => exact List.eq_of_mem_replicate (n := 4) hconvert
  | belongsTo => exact List.eq_of_mem_replicate (n := 3) hconvert

end Relates

theorem AcceptsRelation.reads (h : AcceptsRelation k t ps) (hps : ps.Writable) (c : Convention)
    {n : String} (hname : ps.positional = [.text n]) :
    ReadsRelation c t ps (relationOf c t.className n ps) where
  kind        := rfl
  name        := hname
  targetClass := gives_name (fun _ => asText_of_single hps h.single) _
  foreignKey  := gives_name (fun _ => asText_of_single hps h.single) _
  through     := gives_text fun _ => asText_of_single hps h.single
  onDelete    := gives_action h.onDelete

end Kind

end DocDirective
