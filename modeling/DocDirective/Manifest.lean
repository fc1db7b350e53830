import DocDirective.Disk.Document
import DocDirective.Source
import DocDirective.Value.Display

/-!
# Manifest

Documented classes as a file lists them: each class with its comment, place and ancestors, and
below it its members.  A member without a file of its own has that of its class, and a class
without one has that of the manifest.
-/

namespace DocDirective

/-- Why a manifest lists no classes. -/
inductive ManifestError
  | path              (f : PathFault)
  | missing           (path : Path)
  | read              (e : ReadError)
  | notAList
  | classNotMapping
  | nameMissing       (what : String)
  | membersNotList    (className : String)
  | memberNotMapping  (className : String)
  | unknownKind       (className name kind : String)
  | unwritableKind    (className name : String) (o : Overlong)
  | memberIsClass     (className name : String)
  | commentNotText    (typeName : String)
  | notIterable       (typeName : String)
  | overlong          (o : Overlong)

/-- The wording of the failure. -/
def ManifestError.message : ManifestError → String
  | .path f             => f.message
  | .missing p          => s!"Manifest not found: {p.text}"
  | .read e             => e.message
  | .notAList           => "Manifest must contain a list of classes"
  | .classNotMapping    => "Each manifest class must be a mapping"
  | .nameMissing w      => s!"Missing 'name' for {w}"
  | .membersNotList c   => s!"Members of class \"{c}\" must be a list"
  | .memberNotMapping c => s!"Members of class \"{c}\" must be mappings"
  | .unknownKind c n k  => s!"Member \"{c}.{n}\": {ElementKind.unknownMessage k}"
  | .unwritableKind c n o => s!"Member \"{c}.{n}\": {o.message}"
  | .memberIsClass c n  => s!"Member \"{c}.{n}\" must be a method or a property"
  | .commentNotText t   => s!"Comment must be a string, got {t}"
  | .notIterable t      => s!"'{t}' object is not iterable"
  | .overlong o         => o.message

namespace Manifest

/-- The fields of an entry. -/
abbrev Fields := List (Value × Value)

/-- The text of a value. -/
def plain (v : Value) : Except ManifestError String :=
  match v.plain with
  | .ok s    => .ok s
  | .error o => .error (.overlong o)

/-- A field that has to be a text with something in it. -/
def name (fields : Fields) (what : String) : Except ManifestError String :=
  match Value.field? fields "name" with
  | some (.text s) =>
    if Text.isBlankText s then .error (.nameMissing what) else .ok (Text.trimmed s)
  | _              => .error (.nameMissing what)

/-- A file name; whole numbers and truth values are taken for their texts. -/
def file? (fields : Fields) : Except ManifestError (Option String) := do
  let used (v : Value) : Except ManifestError (Option String) := do
    let s ← plain v
    return if Text.isBlankText s then none else some s
  match Value.field? fields "file" with
  | some (.text s) => used (.text s)
  | some (.int n)  => used (.int n)
  | some (.bool b) => used (.bool b)
  | _              => return none

/-- A line number, also given as a text. -/
def line? (fields : Fields) : Option Int :=
  match Value.field? fields "line" with
  | some (.int n)  => some n
  | some (.text s) => Numeral.looseInt? s
  | _              => none

/-- The texts of what a value can be gone through for: items, keys or characters. -/
def texts (v : Value) : Except ManifestError (List String) :=
  if v.isBare then .ok []
  else match v with
    | .text s  => .ok (s.toList.map String.singleton)
    | .list vs => vs.mapM plain
    | .map es  => es.mapM fun e => plain e.1
    | v        => .error (.notIterable v.typeName)

/-- The ancestors of a class. -/
def ancestors (fields : Fields) : Except ManifestError (List String) :=
  texts ((Value.field? fields "ancestors").getD .null)

/-- The comment of an element, empty where there is none. -/
def comment (fields : Fields) : Except ManifestError String :=
  match Value.field? fields "comment" with
  | none           => .ok ""
  | some .null     => .ok ""
  | some (.text s) => .ok s
  | some v         => .error (.commentNotText v.typeName)

/-- The kind of a member; a value that has no text names none. -/
def memberKind (fields : Fields) (className name : String) : Except ManifestError ElementKind :=
  match ((Value.field? fields "kind").getD (.text "")).plain with
  | .error o => .error (.unwritableKind className name o)
  | .ok word =>
    match ElementKind.parse? word with
    | none          => .error (.unknownKind className name word)
    | some .ofClass => .error (.memberIsClass className name)
    | some k        => .ok k

/-- A member of a class. -/
def memberSource (className : String) (file : Option String) (ancestors : List String) :
    Value → Except ManifestError ElementSource
  | .map fields => do
    let name ← name fields s!"member of \"{className}\""
    let kind ← memberKind fields className name
    let own ← file? fields
    let comment ← comment fields
    return ⟨⟨kind, className, name, own.or file, line? fields, ancestors⟩, comment⟩
  | _           => .error (.memberNotMapping className)

/-- The members of a class. -/
def members (fields : Fields) (className : String) (file : Option String)
    (ancestors : List String) : Except ManifestError (List ElementSource) :=
  let v := (Value.field? fields "members").getD .null
  if v.isBare then .ok []
  else match v with
    | .list vs => vs.mapM (memberSource className file ancestors)
    | _        => .error (.membersNotList className)

/-- A class. -/
def classSource (defaultFile : Option String) : Value → Except ManifestError ClassSource
  | .map fields => do
    let className ← name fields "class"
    let own ← file? fields
    let file := own.or defaultFile
    let ancestors ← ancestors fields
    let members ← members fields className file ancestors
    let comment ← comment fields
    return { target := .forClass className file (line? fields) ancestors, comment, members }
  | _           => .error .classNotMapping

/-- The classes that a value lists, by itself or under the key `classes`. -/
def parse (v : Value) (defaultFile : Option String) : Except ManifestError (List ClassSource) :=
  let listed := match v with
    | .map fields => (Value.field? fields "classes").getD (.list [])
    | v           => v
  match listed with
  | .list vs => vs.mapM (classSource defaultFile)
  | _        => .error .notAList

/-- The classes that the file at a path lists. -/
def load (read : DocumentReader) (d : Disk) (p : Path) :
    Except ManifestError (List ClassSource) :=
  match d.contains p with
  | .error f   => .error (.path f)
  | .ok false  => .error (.missing p)
  | .ok true   =>
    match d.readDocument read p with
    | .ok v    => parse v (some p.text)
    | .error e => .error (.read e)

end Manifest

end DocDirective
