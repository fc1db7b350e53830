import DocDirective.Disk.Document
import DocDirective.Registry.Population

/-!
# Settings

The settings of a project: which kinds are registered, and how much is logged and where.  They
stand in `.docmeta.yml`; what is missing or of the wrong form there has its default.
-/

namespace DocDirective

/-- The name of the file that settings stand in. -/
def settingsFile : String := ".docmeta.yml"

/-- Why settings cannot be loaded. -/
inductive SettingsError
  | path        (f : PathFault)
  | read        (e : ReadError)
  | notAMapping

/-- The wording of the failure. -/
def SettingsError.message : SettingsError → String
  | .path f      => f.message
  | .read e      => e.message
  | .notAMapping => s!"{settingsFile} must contain a mapping at the root"

/-- The settings of the project in a directory. -/
structure Settings where
  root      : Path
  selection : Selection := {}
  verbose   : Bool := false
  logFile   : Option Path := none

namespace Settings

/-- The entries of a mapping under a key, none where there is no mapping. -/
def section? (entries : List (Value × Value)) (key : String) : List (Value × Value) :=
  match Value.field? entries key with
  | some (.map es) => es
  | _              => []

/-- A truth value, also given as a word. -/
def truth? : Option Value → Option Bool
  | some (.bool b) => some b
  | some (.text s) =>
    let word := Text.lowered (Text.trimmed s)
    if word ∈ ["true", "yes", "1"] then some true
    else if word ∈ ["false", "no", "0"] then some false
    else none
  | _              => none

/-- A value that can stand in a list of names. -/
def isNameable : Value → Bool
  | .bool _  => true
  | .int _   => true
  | .float _ => true
  | .text _  => true
  | _        => false

/-- A list of names, also given as one name; other values in the list are left out. -/
def names : Option Value → Except Overlong (List String)
  | some (.text s)  => .ok [s]
  | some (.list vs) => (vs.filter isNameable).mapM Value.plain
  | _               => .ok []

/-- The names under a key, if the key has a value. -/
def names? (entries : List (Value × Value)) (key : String) :
    Except Overlong (Option (List String)) :=
  match Value.field? entries key with
  | none       => .ok none
  | some .null => .ok none
  | v          => (names v).map some

/-- The kinds that settings select. -/
def selectionOf (entries : List (Value × Value)) : Except Overlong Selection := do
  let enabled ← names? entries "enabled"
  let modules ← names (Value.field? entries "modules")
  let entryPoints := (truth? (Value.field? entries "entry_points")).getD true
  return { enabled, modules, entryPoints }

/-- The log file that settings name, below the root. -/
def logFileOf (root : Path) (entries : List (Value × Value)) : Option Path :=
  match Value.field? entries "file" with
  | some (.text s) =>
    if Text.isBlankText s then none else some (root.join (.ofText (Text.trimmed s)))
  | _              => none

/-- The settings that a value holds. -/
def ofValue (root : Path) : Value → Except SettingsError Settings
  | .map entries =>
    let logging := section? entries "logging"
    match selectionOf (section? entries "annotations") with
    | .error o      => .error (.read (.broken (.overlong o)))
    | .ok selection => .ok {
      root, selection
      verbose := (truth? (Value.field? logging "verbose")).getD false
      logFile := logFileOf root logging }
  | _            => .error .notAMapping

/-- The file that the settings at a path stand in: the path itself, or the one of the common name
in a directory. -/
def fileAt (d : Disk) (p : Path) : Except PathFault Path := do
  let p ← d.expandHome p
  let file := if ← d.isDirectory p then p.child settingsFile else p
  if file.hasNull then .error .nullCharacter else return file.resolve d.cwd

/-- The file that the settings at a path stand in, and whether it is there. -/
def locate (d : Disk) (p : Path) : Except PathFault (Path × Bool) := do
  let file ← fileAt d p
  return (file, ← d.contains file)

/-- The settings at a path; without a file everything has its default. -/
def load (read : DocumentReader) (d : Disk) (p : Path) : Except SettingsError Settings :=
  match locate d p with
  | .error f          => .error (.path f)
  | .ok (file, false) => .ok { root := file.parent }
  | .ok (file, true)  =>
    match d.readDocument read file with
    | .ok v    => ofValue file.parent v
    | .error e => .error (.read e)

end Settings

end DocDirective
