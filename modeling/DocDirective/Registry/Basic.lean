import DocDirective.Kind.Mapping
import DocDirective.Log

/-!
# Registry

The kinds that directives are looked up in, by name.  A registry is filled, then closed, and from
then on only read.
-/

namespace DocDirective

/-- Something offered to a registry: a kind, or a value that is none. -/
inductive Offer
  | kind  (k : Kind)
  | value (v : Value)

/-- Why an offer is turned down. -/
inductive RegisterError
  | closed         (name : String)
  | nameless       (typeName : String)
  | notAKind       (shown : String)
  | appliesNowhere (name : String)
  | misnamed       (name : String)
  | overlong       (o : Overlong)

/-- The wording of the refusal. -/
def RegisterError.message : RegisterError → String
  | .closed n         => s!"Cannot register \"{n}\": the annotation registry is frozen."
  | .nameless t       => s!"'{t}' object has no attribute '__name__'"
  | .notAKind v       => s!"{v} is not an Annotation subclass"
  | .appliesNowhere n => s!"{n} must apply to at least one element kind"
  | .misnamed n       =>
    s!"Annotation class \"{n}\" must be named <Identifier>{Kind.suffix} so that " ++
      s!"!{n} can be looked up"
  | .overlong o       => o.message

/-- The kinds by name, and whether more may be added. -/
structure Registry where
  kinds  : Keyed Kind
  frozen : Bool

namespace Registry

/-- The open registry with no kinds. -/
def empty : Registry := ⟨.empty, false⟩

/-- A name ends as the names of kinds do, with something in front. -/
def isKindName (name : String) : Bool :=
  Kind.suffix.toList.isSuffixOf name.toList && name ≠ Kind.suffix

/-- What is said of a value that is no kind. -/
def refuseValue (v : Value) : RegisterError :=
  match v.inspect with
  | .ok t    => .notAKind t
  | .error o => .overlong o

/-- Why a registry turns an offer down, if it does. -/
def refusal? (r : Registry) : Offer → Option RegisterError
  | .kind k  =>
    if r.frozen then some (.closed k.name)
    else if k.bits = 0 then some (.appliesNowhere k.name)
    else if !isKindName k.name then some (.misnamed k.name)
    else none
  | .value v => if r.frozen then some (.nameless v.typeName) else some (refuseValue v)

/-- Adds a kind under its name; an earlier kind of the name loses its place to it. -/
def register (r : Registry) (o : Offer) : Except RegisterError Registry :=
  match o, r.refusal? o with
  | _,       some e => .error e
  | .kind k, none   => .ok { r with kinds := r.kinds.insert k.name k }
  | .value v, none  => .error (refuseValue v)

/-- What adding a kind puts into the log. -/
def registerLog (r : Registry) (k : Kind) : List LogLine :=
  (match r.kinds.get? k.name with
    | some old =>
      if old.serial = k.serial then []
      else [⟨.debug, "registry", s!"Replacing annotation {k.name}"⟩]
    | none     => []) ++ [⟨.debug, "registry", s!"Registered annotation {k.name}"⟩]

/-- Adds kinds one after another, up to one that is turned down. -/
def registerAll (r : Registry) : List Offer → Except RegisterError Registry
  | []        => .ok r
  | o :: rest => do
    let r ← r.register o
    r.registerAll rest

/-- Closes the registry. -/
def freeze (r : Registry) : Registry := { r with frozen := true }

/-- The kind that a directive of some name belongs to. -/
def find? (r : Registry) (name : String) : Option Kind := r.kinds.get? (name ++ Kind.suffix)

/-- A directive of some name belongs to a kind. -/
def contains (r : Registry) (name : String) : Bool := (r.find? name).isSome

/-- The error about a directive that belongs to no kind. -/
def unknown (name : String) : AnnotationError :=
  { cause     := .unregistered
    message   := s!"Unknown annotation: \"{name}\". It must be registered before use, " ++
      s!"for example with registry.register({name}{Kind.suffix})."
    directive := some name }

/-- The kind that a directive of some name belongs to, or the error about the directive. -/
def lookup (r : Registry) (name : String) : Except AnnotationError Kind :=
  match r.find? name with
  | some k => .ok k
  | none   => .error (unknown name)

/-- The names that directives use, in order. -/
def names (r : Registry) : List String := r.kinds.values.map (·.identifier)

/-- The closed registry of the kinds that are always there. -/
def default : Registry := ⟨.ofList (Kind.builtins.map fun k => (k.name, k)), true⟩

end Registry

end DocDirective
