import DocDirective.Kind.Basic

/-!
# Invocation

A kind with the parameters of one directive.  Expanding an invocation checks the element and the
parameters, binds them, and lets the kind change a descriptor; it happens at most once.  Everything
the checks have to say is reported together.
-/

namespace DocDirective

/-- A kind with the parameters of one directive, and how far its expansion has come. -/
structure Invocation where
  kind       : Kind
  parameters : Option Parameters
  errors     : List String := []
  values     : List Value := []
  target     : Option Target := none
  stage      : Stage := .parsed
  slots      : Keyed Value

/-- What an expansion leaves: the invocation, the descriptor and the fault that ended it. -/
structure Expansion where
  invocation : Invocation
  descriptor : Descriptor
  fault      : Option Fault := none

/-- Adds a complaint that is not there yet. -/
def note (errors : List String) (complaint : String) : List String :=
  if complaint ∈ errors then errors else errors ++ [complaint]

/-- Adds complaints one after another, up to a fault. -/
def gather (add : List String → String → List String) (errors : List String) :
    Complaints → List String × Option Fault
  | []              => (errors, none)
  | .ok m :: rest   => gather add (add errors m) rest
  | .error f :: _   => (errors, some f)

namespace Check

/-- Adds the complaints of a check. -/
def run (s : Subject) (errors : List String) : Check → List String × Option Fault
  | .rule r   => gather note errors (r.complaints s)
  | .own look => gather (fun es m => es ++ [m]) errors (look s)

/-- Adds the complaints of checks one after another, up to a fault. -/
def runAll (s : Subject) (errors : List String) : List Check → List String × Option Fault
  | []        => (errors, none)
  | c :: rest =>
    match c.run s errors with
    | (errors, none)   => runAll s errors rest
    | (errors, some f) => (errors, some f)

end Check

namespace Invocation

/-- The defaults of declared keys, in order. -/
def defaults (fields : Keyed Field) : Keyed Value :=
  .ofList (fields.values.map fun f => (f.slot, f.default))

/-- A kind with parameters that nothing has been done with.  A slot that stands in front of the
parameters leaves none. -/
def new (kind : Kind) (parameters : Parameters) : Invocation where
  kind       := kind
  parameters := if kind.hidesParameters then none else some parameters
  slots      := defaults kind.fields

/-- What the checks look at. -/
def subject (i : Invocation) : Subject := ⟨i.kind.name, i.parameters, i.target⟩

/-- Applies a rule. -/
def check (i : Invocation) (r : Rule) : Invocation × Option Fault :=
  let r := Check.run i.subject i.errors (.rule r)
  ({ i with errors := r.1 }, r.2)

/-- Sets the element. -/
def retarget (i : Invocation) (t : Target) : Invocation := { i with target := some t }

/-- The keyed values, the values without a key that are still parameters, and those bound. -/
def allValues (i : Invocation) : List Value :=
  (match i.parameters with
    | some p => p.values
    | none   => []) ++ i.values

/-- The value is one of the parameters. -/
def hasValue (i : Invocation) (v : Value) : Bool := v.isIn i.allValues

/-- The first of some values that is not among others. -/
def firstOutside (values allowed : List Value) (case? : Option Case) : Option Value :=
  values.find? fun v => !(foldBy case? v).isIn allowed

/-- The first value that is not among others. -/
def valueNotIn (i : Invocation) (allowed : List Value) (case? : Option Case) : Option Value :=
  firstOutside i.allValues allowed case?

/-- The complaint about an element that the kind does not apply to. -/
def misplacedMessage (kind : String) (mask : Mask) : String :=
  s!"{kind} is only valid on " ++ ", ".intercalate (mask.members.map (·.title)) ++ "."

/-- What the conversion of keyed values gives: the complaints, the values by slot, and the fault
that a conversion broke down with, if one did. -/
def convert (fields : Keyed Field) :
    List (String × Value) → List String → Keyed Value → List String × Keyed Value × Option Fault
  | [],             errors, converted => (errors, converted, none)
  | (k, v) :: rest, errors, converted =>
    match fields.get? k with
    | none   => convert fields rest (note errors (Rule.unknownKey k)) converted
    | some f =>
      match f.convert.apply v with
      | .ok w    => convert fields rest errors (converted.insert f.slot w)
      | .error e =>
        match e.unfit? with
        | some u =>
          convert fields rest (note errors s!"The \"{k}\" parameter {u.message}.") converted
        | none   => (errors, converted, some e)

/-- The opening of a report about an element. -/
def headline (kind : String) (t : Target) : String :=
  if t.kind = .ofProperty then
    s!"Invalid {kind} on property \"{t.name}\" of class \"{t.className}\". "
  else s!"Invalid {kind} on {t.kind.label} \"{t.name}\". "

/-- The report of what the checks found. -/
def failure (kind : Kind) (t : Target) (errors : List String) (misplaced : Bool) :
    AnnotationError :=
  { cause := if misplaced then .inapplicable ⟨errors, none, true⟩
      else .invalid ⟨errors, some kind.usage, false⟩
    message := headline kind.name t ++
      (if misplaced then "" else "Expected usage: \n" ++ kind.usage) ++
      "\n == Errors == \n * " ++ "\n * ".intercalate errors
    directive := some kind.identifier
    file := t.file
    line := t.line }

/-- Binds the converted values and lets the kind change the descriptor. -/
def bindAndExpand (i : Invocation) (p : Parameters) (t : Target) (converted : Keyed Value)
    (d : Descriptor) : Expansion :=
  let bound := { i with
    slots      := i.slots.insertAll converted.entries
    values     := p.positional
    parameters := none
    stage      := .bound }
  match i.kind.expand ⟨i.kind.name, p.positional, bound.slots, t⟩ d with
  | (d, none)   => ⟨{ bound with stage := .expanded }, d, none⟩
  | (d, some f) => ⟨bound, d, some f⟩

/-- Checks an invocation whose kind says where it applies, and goes on if nothing is found. -/
def checkAndExpand (i : Invocation) (mask : Mask) (t : Target) (d : Descriptor) : Expansion :=
  let misplaced := !mask.contains t.kind
  let i := if misplaced then { i with errors := note i.errors (misplacedMessage i.kind.name mask) }
    else { i with stage := .typeChecked }
  match Check.runAll i.subject i.errors i.kind.checks with
  | (errors, some f) => ⟨{ i with errors := errors }, d, some f⟩
  | (errors, none)   =>
    match i.parameters with
    | none   => ⟨{ i with errors := errors }, d, some (.alreadyBound i.kind.name)⟩
    | some p =>
      match convert i.kind.fields p.keyed.entries errors .empty with
      | (errors, _, some f)    => ⟨{ i with errors := errors }, d, some f⟩
      | ([], converted, none)  => bindAndExpand { i with errors := [] } p t converted d
      | (e :: errors, _, none) =>
        ⟨{ i with errors := e :: errors, stage := .failed }, d,
          some (.reported (failure i.kind t (e :: errors) misplaced))⟩

/-- Checks, binds and expands an invocation for an element. -/
def expand (i : Invocation) (t : Target) (d : Descriptor) : Expansion :=
  if i.stage = .parsed then
    match i.kind.mask with
    | some mask => checkAndExpand (i.retarget t) mask t d
    | none      => ⟨i.retarget t, d, some (.noTargets i.kind.name)⟩
  else ⟨i, d, some (.alreadyExpanded i.kind.name i.stage)⟩

end Invocation

end DocDirective
