import DocDirective.Registry.Basic

/-!
# Registry — Population

How the registry of a run is filled: the built-in kinds that the settings enable, then the kinds of
the modules they name, then the kinds of plugins.  A later kind takes the place of an earlier one
of its name.
-/

namespace DocDirective

/-- Which kinds a registry is filled with; every built-in kind where `enabled` is absent. -/
structure Selection where
  enabled     : Option (List String) := none
  modules     : List String := []
  entryPoints : Bool := true
  deriving DecidableEq, Repr

/-- What a module defines: a list of kinds, and kinds that its own hook adds after them. -/
structure ModuleKinds where
  listed : Option (List Offer)
  hooked : Option (List Offer)

/-- A plugin, and what loading it gives: offers, or the reason why it fails. -/
structure EntryPoint where
  name   : String
  result : Except String (List Offer)

/-- What can be loaded. -/
structure Plugins where
  modules     : Keyed ModuleKinds := .empty
  entryPoints : List EntryPoint := []

/-- Why a registry cannot be filled. -/
inductive PopulationError
  | unknownKinds      (names : List String)
  | unnamedModule
  | relativeModule    (name : String)
  | missingModule     (name missing : String)
  | notAPackage       (name missing parent : String)
  | nothingDefined    (module : String)
  | foreign           (source shown : String)
  | overlong          (o : Overlong)
  | pluginFailed      (name message : String)
  | turnedDown        (e : RegisterError)

/-- The wording of the failure. -/
def PopulationError.message : PopulationError → String
  | .unknownKinds ns    => "Unknown annotations requested: " ++ ", ".intercalate ns
  | .unnamedModule      => "Empty module name"
  | .relativeModule n   =>
    s!"the 'package' argument is required to perform a relative import for {Text.quoted n}"
  | .missingModule n m  =>
    s!"Failed to import annotation module '{n}': No module named {Text.quoted m}"
  | .notAPackage n m p  =>
    s!"Failed to import annotation module '{n}': No module named {Text.quoted m}; " ++
      s!"{Text.quoted p} is not a package"
  | .nothingDefined n   => s!"Annotation module '{n}' defines neither ANNOTATIONS nor register()"
  | .foreign s v        => s!"'{s}' provided {v}, which is not an Annotation subclass"
  | .overlong o         => o.message
  | .pluginFailed n m   => s!"Failed to load annotation entry point '{n}': {m}"
  | .turnedDown e       => e.message

/-- One step of filling a registry. -/
inductive PopulationStep
  | offer (o : Offer)
  | say   (message : String)
  | fail  (e : PopulationError)

namespace PopulationStep

/-- Offers a kind; an offer that is none fails in the name of its source. -/
def vetted (source : String) : Offer → PopulationStep
  | .kind k  => .offer (.kind k)
  | .value v => match v.inspect with
    | .ok t    => .fail (.foreign source t)
    | .error o => .fail (.overlong o)

/-- The failure of a step that fails. -/
def failure? : PopulationStep → Option PopulationError
  | .fail e => some e
  | _       => none

end PopulationStep

/-! ### Built-in kinds -/

namespace Selection

/-- The names in lower case and without blanks around them. -/
def requested (names : List String) : List String :=
  names.map fun n => Text.lowered (Text.trimmed n)

/-- Names in ascending order, each once. -/
def sorted (names : List String) : List String :=
  names.eraseDups.mergeSort fun a b => !(b < a)

/-- The steps of the built-in kinds that are enabled: each once, in the order of their names. -/
def builtinSteps (enabled : Option (List String)) : List PopulationStep :=
  match enabled with
  | none       => Kind.builtins.map fun k => .offer (.kind k)
  | some names =>
    let names := requested names
    let unknown := names.filter fun n => !Kind.builtinTable.contains n
    if unknown.isEmpty then
      (names.eraseDups.filterMap Kind.builtinTable.get?).map fun k => .offer (.kind k)
    else [.fail (.unknownKinds (sorted unknown))]

end Selection

/-! ### Modules -/

namespace ModuleKinds

/-- The pieces of a dotted name, each joined with those before it. -/
def dottedParts (name : String) : List String :=
  let pieces := name.splitOn "."
  (List.range pieces.length).map fun i => ".".intercalate (pieces.take (i + 1))

/-- Why a module cannot be found, looking for its packages from the outside in. -/
def missing (modules : Keyed ModuleKinds) (name : String) (parent : Option String) :
    List String → PopulationError
  | []            => .missingModule name name
  | part :: parts =>
    if modules.contains part then missing modules name (some part) parts
    else match parent with
      | some p => .notAPackage name part p
      | none   => .missingModule name part

/-- What the module of a name defines. -/
def find (modules : Keyed ModuleKinds) (name : String) : Except PopulationError ModuleKinds :=
  if name.isEmpty then .error .unnamedModule
  else if name.toList.head? = some '.' then .error (.relativeModule name)
  else match modules.get? name with
    | some m => .ok m
    | none   => .error (missing modules name none (dottedParts name))

/-- The steps of the kinds that a module lists and of those that its hook adds. -/
def stepsOf (name : String) (m : ModuleKinds) : List PopulationStep :=
  match m.listed, m.hooked with
  | none,   none    => [.fail (.nothingDefined name)]
  | listed, none    => (listed.getD []).map (.vetted name)
  | listed, some os => (listed.getD []).map (.vetted name) ++
    .say s!"Calling register() of annotation module {name}" :: os.map .offer

/-- The steps of the module of a name. -/
def steps (modules : Keyed ModuleKinds) (name : String) : List PopulationStep :=
  match find modules name with
  | .ok m    => stepsOf name m
  | .error e => [.fail e]

end ModuleKinds

/-! ### Plugins -/

namespace EntryPoint

/-- The steps of one plugin. -/
def stepsOf (e : EntryPoint) : List PopulationStep :=
  match e.result with
  | .ok os   => os.map (.vetted e.name)
  | .error m => [.fail (.pluginFailed e.name m)]

/-- The steps of plugins.  All of them are loaded before a kind of any is added, so the first
failure comes before every offer. -/
def steps (es : List EntryPoint) : List PopulationStep :=
  let all := es.flatMap stepsOf
  match all.findSome? (·.failure?) with
  | some e => [.fail e]
  | none   => all

end EntryPoint

/-! ### All of it -/

/-- A registry while it is filled, the log so far, and the failure that ended the filling. -/
structure Filling where
  registry : Registry
  log      : List LogLine
  failure  : Option PopulationError := none

namespace Filling

/-- Takes steps one after another, up to one that fails. -/
def run : List PopulationStep → Filling → Filling
  | [],                  f => f
  | .fail e :: _,        f => { f with failure := some e }
  | .say m :: rest,      f => run rest { f with log := f.log ++ [⟨.debug, "registry", m⟩] }
  | .offer o :: rest,    f =>
    match o, f.registry.register o with
    | _,        .error e => { f with failure := some (.turnedDown e) }
    | .kind k,  .ok r    =>
      run rest { f with registry := r, log := f.log ++ f.registry.registerLog k }
    | .value _, .ok r    => run rest { f with registry := r }

/-- Closes the registry, unless the filling failed. -/
def close (f : Filling) : Filling :=
  match f.failure with
  | some _ => f
  | none   =>
    { f with
      registry := f.registry.freeze
      log := f.log ++ [⟨.debug, "annotations",
        s!"Annotation registry ready with {f.registry.kinds.size} kinds"⟩] }

end Filling

namespace Selection

/-- The steps that fill a registry. -/
def steps (s : Selection) (plugins : Plugins) : List PopulationStep :=
  builtinSteps s.enabled ++ s.modules.flatMap (ModuleKinds.steps plugins.modules) ++
    (if s.entryPoints then EntryPoint.steps plugins.entryPoints else [])

/-- Fills a registry and closes it. -/
def populate (s : Selection) (plugins : Plugins) : Filling :=
  (Filling.run (s.steps plugins) ⟨.empty, [], none⟩).close

end Selection

end DocDirective
