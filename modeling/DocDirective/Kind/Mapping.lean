import DocDirective.Invocation
import DocDirective.Kind.Routing

/-!
# Kind — Mapping

The kinds that map classes to tables: `!Table` and `!Source` on a class, `!Column` on a property,
and the relations `!HasMany` and `!BelongsTo` on a class.
-/

namespace DocDirective.Kind

/-- Names the table of a class: `!Table users`. -/
def table : Kind where
  name   := "TableAnnotation"
  serial := 0
  mask   := some ⟨ElementKind.ofClass.bit⟩
  usage  := "!Table table_name"
  fields := .empty
  checks := [.rule .acceptsNoKeyedValues, .rule (.exactCount 1)]
  expand := expandText fun s d => { d with table := some s }

/-- Names the data source of a class: `!Source reporting`. -/
def source : Kind where
  name   := "SourceAnnotation"
  serial := 0
  mask   := some ⟨ElementKind.ofClass.bit⟩
  usage  := "!Source data_source_name"
  fields := .empty
  checks := [.rule .acceptsNoKeyedValues, .rule (.exactCount 1)]
  expand := expandText fun s d => { d with source := some s }

/-! ### Columns -/

/-- The types of columns. -/
def columnTypes : List String :=
  ["integer", "string", "text", "float", "decimal", "boolean", "date", "time", "datetime",
    "timestamp", "blob"]

/-- The words that modify a column. -/
def columnModifiers : List String := ["primarykey", "autoincrement"]

/-- The value is one of some words in any case. -/
def isWordOf (words : List String) (v : Value) : Bool :=
  match v with
  | .text s => Text.lowered s ∈ words
  | _       => false

/-- A column has one type. -/
def lookAtColumn (s : Subject) : Complaints :=
  s.withParameters fun p =>
    match p.positional.filter (isWordOf columnTypes) with
    | []  => [.ok s!"{s.kind} requires a column type."]
    | [_] => []
    | ts  => Rule.worded do
      let texts ← ts.mapM Value.plain
      return s!"{s.kind} takes one column type, got: " ++ ", ".intercalate texts ++ "."

/-- The value is the modifier in any case. -/
def hasModifier (b : Binding) (modifier : String) : Bool :=
  b.values.any (isWordOf [modifier])

/-- The text of the first value that is no modifier, or no text where every value is one. -/
def columnTypeText (vs : List Value) : Except Unfit String :=
  match Invocation.firstOutside vs (columnModifiers.map .text) (some .lower) with
  | some v => if v.isBare then .ok "" else v.asText
  | none   => .ok ""

/-- Adds the column.  A primary key is not nullable unless it says so. -/
def expandColumn (b : Binding) (d : Descriptor) : Descriptor × Option Fault :=
  match columnTypeText b.values with
  | .error u => (d, some (.unfit u))
  | .ok type =>
    let primaryKey := hasModifier b "primarykey"
    let nullable := match b.slot "nullable" with
      | .bool n => n
      | _       => !primaryKey
    (d.addColumn ⟨b.target.name, Text.lowered type, nullable, primaryKey,
      hasModifier b "autoincrement", b.slot "default"⟩, none)

/-- Maps a property to a column: `!Column integer, PrimaryKey, AutoIncrement`. -/
def column : Kind where
  name   := "ColumnAnnotation"
  serial := 0
  mask   := some ⟨ElementKind.ofProperty.bit⟩
  usage  := "!Column (" ++ "|".intercalate columnTypes ++
    ")[, PrimaryKey][, AutoIncrement][, nullable: true|false][, default: value]"
  fields := .ofList [
    ("nullable", { slot := "nullable", convert := .truth }),
    ("default",  { slot := "default" })]
  checks := [
    .rule (.minimumCount 1),
    .rule (.acceptedKeys ["nullable", "default"]),
    .rule (.acceptedKeylessValues ((columnTypes ++ columnModifiers).map .text) (some .lower)),
    .own lookAtColumn]
  expand := expandColumn

/-! ### Relations -/

/-- What happens to the related objects when an object is deleted. -/
def onDeleteActions : List String := ["cascade", "delete", "nullify"]

/-- A relation has one name. -/
def lookAtRelation (s : Subject) : Complaints :=
  s.withParameters fun p =>
    match p.positional with
    | [.text _] => []
    | _         => [.ok s!"{s.kind} requires exactly one relationship name."]

/-- The singular of a plural name. -/
def singular (name : String) : String :=
  let cs := name.toList
  if ['i', 'e', 's'].isSuffixOf cs && 3 < cs.length then
    String.ofList (cs.take (cs.length - 3) ++ ['y'])
  else if ['s'].isSuffixOf cs && !(['s', 's'].isSuffixOf cs) then String.ofList cs.dropLast
  else name

/-- A kind of relation: its word, and what stands for a class or a key that is not given. -/
structure Convention where
  word         : String
  defaultClass : String → String
  defaultKey   : (name className : String) → String

/-- A class has many of another. -/
def hasManyConvention : Convention where
  word         := "has_many"
  defaultClass := fun name => Text.upperFirst (singular name)
  defaultKey   := fun _ className => Text.lowerFirst className ++ "Id"

/-- A class belongs to another. -/
def belongsToConvention : Convention where
  word         := "belongs_to"
  defaultClass := Text.upperFirst
  defaultKey   := fun name _ => name ++ "Id"

/-- A text that is there and not empty, or the one that stands for it. -/
def orDefault (given : Option String) (standard : String) : String :=
  match given with
  | some s => if s.isEmpty then standard else s
  | none   => standard

/-- The action on deletion with its first letter in upper case. -/
def actionTitle (given : Option String) : Option String :=
  match given with
  | some s => if s.isEmpty then none else some (Text.capitalized s)
  | none   => none

/-- Adds the relation. -/
def expandRelation (c : Convention) (b : Binding) (d : Descriptor) : Descriptor × Option Fault :=
  expandText (fun name d => d.addRelation
    { kind        := c.word
      name        := name
      targetClass := orDefault (slotText b "related_class") (c.defaultClass name)
      foreignKey  := orDefault (slotText b "foreign_key") (c.defaultKey name b.target.className)
      through     := slotText b "through"
      onDelete    := actionTitle (slotText b "on_delete") }) b d

/-- The checks of a relation with some keys. -/
def relationChecks (keys : List String) : List Check := [
  .rule (.acceptedKeys keys),
  .own lookAtRelation,
  .rule (.acceptedValuesForKey "ondelete" (onDeleteActions.map .text) (some .lower))]

/-- Relates a class to many of another: `!HasMany books, Class: Book, Key: authorId`. -/
def hasMany : Kind where
  name   := "HasManyAnnotation"
  serial := 0
  mask   := some ⟨ElementKind.ofClass.bit⟩
  usage  := "!HasMany relationName[, Class: RelatedClass][, Key: foreignKey]" ++
    "[, Through: JoinClass][, OnDelete: (Cascade|Delete|Nullify)]"
  fields := .ofList [
    ("class",    { slot := "related_class", convert := .text }),
    ("key",      { slot := "foreign_key", convert := .text }),
    ("through",  { slot := "through", convert := .text }),
    ("ondelete", { slot := "on_delete", convert := .text })]
  checks := relationChecks ["class", "key", "through", "ondelete"]
  expand := expandRelation hasManyConvention

/-- Relates a class to one of another: `!BelongsTo author, Class: Person, Key: authorId`. -/
def belongsTo : Kind where
  name   := "BelongsToAnnotation"
  serial := 0
  mask   := some ⟨ElementKind.ofClass.bit⟩
  usage  := "!BelongsTo relationName[, Class: RelatedClass][, Key: foreignKey]" ++
    "[, OnDelete: (Cascade|Delete|Nullify)]"
  fields := .ofList [
    ("class",    { slot := "related_class", convert := .text }),
    ("key",      { slot := "foreign_key", convert := .text }),
    ("ondelete", { slot := "on_delete", convert := .text })]
  checks := relationChecks ["class", "key", "ondelete"]
  expand := expandRelation belongsToConvention

/-! ### All of them -/

/-- The kinds that are always there. -/
def builtins : List Kind := [route, routesPrefix, table, source, column, hasMany, belongsTo]

/-- The kinds that are always there, by the name that settings use. -/
def builtinTable : Keyed Kind :=
  .ofList (builtins.map fun k => (Text.lowered k.identifier, k))

end DocDirective.Kind
