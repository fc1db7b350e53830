import DocDirective.Arguments.Entry
import DocDirective.Registry.Basic
import DocDirective.Source

/-!
# Processor

Reads the directives of comments and expands them into descriptors.  A directive that fails leaves
the others alone: a pass attempts every directive in order, and its errors are reported at its end,
one alone as it is and several as a batch.  Only a fault that is no error about a directive ends
the pass where it happens.
-/

namespace DocDirective

namespace Arguments

/-- The error about arguments that cannot be read. -/
def malformed (name? : Option String) (text : String) (p : Problem) : AnnotationError :=
  let label := match name? with
    | some n => if n.isEmpty then "" else s!"!{n} "
    | none   => ""
  { cause     := .malformed
    message   := s!"There is an unparseable annotation value: \"{label}{text}\" ({p.message})"
    directive := name? }

/-- The parameters of a directive. -/
def read (name? : Option String) (text : String) : Except Fault Parameters :=
  match evaluate text with
  | .ok p                   => .ok p
  | .error (.problem p)     => .error (.reported (malformed name? text p))
  | .error .noSuchLiteral   => .error .outOfRange
  | .error (.overlong o)    => .error (.overlong o)

end Arguments

/-- A directive with its parameters. -/
structure Reading where
  directive  : Directive
  parameters : Parameters

/-- Reads every directive of a text, up to one that cannot be read. -/
def Reading.ofText (text : String) : Except Fault (List Reading) :=
  (Directive.scan text).mapM fun d => do
    let p ← Arguments.read (some d.name) d.arguments
    return ⟨d, p⟩

/-- What came of one directive: the kind whose expansion was begun, if one was, and the fault. -/
structure Attempt where
  target    : Target
  directive : Directive
  begun     : Option String
  fault     : Option Fault

namespace Attempt

/-- The error about the directive, where it is one. -/
def error? (a : Attempt) : Option AnnotationError :=
  match a.fault with
  | some (.reported e) => some e
  | _                  => none

/-- The fault that ends the pass, where it is one. -/
def abort? (a : Attempt) : Option Fault :=
  match a.fault with
  | some (.reported _) => none
  | f                  => f

/-- What the attempt puts into the log. -/
def log (a : Attempt) : List LogLine :=
  [⟨.debug, "processor", s!"Parsing !{a.directive.name} {a.directive.arguments}"⟩] ++
  (match a.begun with
    | some kind =>
      [⟨.debug, "annotations", s!"Expanding {kind} on {a.target.kind.label} {a.target.name}"⟩]
    | none      => []) ++
  (match a.error? with
    | some e => [⟨.warning, "processor", e.message⟩]
    | none   => [])

end Attempt

/-- The attempts of a pass and the descriptor it leaves. -/
structure Pass where
  attempts   : List Attempt
  descriptor : Descriptor

namespace Pass

/-- The errors about directives, in order. -/
def errors (p : Pass) : List AnnotationError := p.attempts.filterMap (·.error?)

/-- The fault that ended the pass early, if one did. -/
def abort? (p : Pass) : Option Fault := p.attempts.findSome? (·.abort?)

/-- Errors as one fault: none, the only one, or a batch, if it can be made. -/
def raise : List AnnotationError → Option Fault
  | []  => none
  | [e] => some (.reported e)
  | es  =>
    match ErrorBatch.ofErrors es with
    | .ok b    => some (.batch b)
    | .error o => some (.overlong o)

/-- The errors that the pass is reported with: of an error that is several, these. -/
def failures (p : Pass) : List AnnotationError :=
  match p.errors with
  | [e] => e.parts
  | es  => es

/-- The fault that the pass ends with. -/
def fault (p : Pass) : Option Fault := p.abort?.or (raise p.errors)

/-- What the pass puts into the log. -/
def log (p : Pass) : List LogLine := p.attempts.flatMap (·.log)

end Pass

/-- Reads directives against a registry. -/
structure Processor where
  registry : Registry := .default

namespace Processor

/-- The fault with the place of the element, if it is an error that does not know its own. -/
def locate (t : Target) (f : Fault) : Fault :=
  match f.error? with
  | some e => .reported (e.located t.file t.line)
  | none   => f

/-- The invocation of a directive: its arguments are read first, then its kind is looked up. -/
def instantiate (p : Processor) (d : Directive) : Except Fault Invocation :=
  match Arguments.read (some d.name) d.arguments with
  | .error f => .error f
  | .ok ps   =>
    match p.registry.lookup d.name with
    | .error e => .error (.reported e)
    | .ok k    => .ok (.new k ps)

/-- The stage of an invocation whose kind's expansion was begun. -/
def hasBegun (s : Stage) : Bool := s = .bound || s = .expanded

/-- Attempts one directive. -/
def attempt (p : Processor) (t : Target) (d : Directive) (desc : Descriptor) :
    Attempt × Descriptor :=
  match p.instantiate d with
  | .error f => (⟨t, d, none, some (locate t f)⟩, desc)
  | .ok i    =>
    let e := i.expand t desc
    (⟨t, d, if hasBegun e.invocation.stage then some i.kind.name else none,
      e.fault.map (locate t)⟩, e.descriptor)

/-- Attempts directives one after another, up to one that ends the pass. -/
def run (p : Processor) : List (Target × Directive) → Descriptor → Pass
  | [],             desc => ⟨[], desc⟩
  | (t, d) :: rest, desc =>
    let r := p.attempt t d desc
    match r.1.abort? with
    | some _ => ⟨[r.1], r.2⟩
    | none   =>
      let q := p.run rest r.2
      ⟨r.1 :: q.attempts, q.descriptor⟩

/-- Expands the directives of an element. -/
def expandElement (p : Processor) (s : ElementSource) (desc : Descriptor) : Pass :=
  p.run s.directives desc

/-- Expands the directives of a class and then of its members. -/
def expandClass (p : Processor) (s : ClassSource) (desc : Descriptor) : Pass :=
  p.run s.directives desc

/-- Expands the directives of a class into a descriptor of its own. -/
def expandFresh (p : Processor) (s : ClassSource) : Pass :=
  p.expandClass s { className := s.target.className }

/-- The invocations of a comment and the errors about its directives. -/
structure Parsed where
  invocations : List Invocation
  errors      : List AnnotationError

/-- Places an error, where an element is given. -/
def locateIn (t? : Option Target) (e : AnnotationError) : AnnotationError :=
  match t? with
  | some t => e.located t.file t.line
  | none   => e

/-- Reads directives without expanding them. -/
def parseAll (p : Processor) (t? : Option Target) : List Directive → Except Fault Parsed
  | []        => .ok ⟨[], []⟩
  | d :: rest =>
    match p.instantiate d with
    | .error f =>
      match f.error? with
      | some e => do
        let q ← p.parseAll t? rest
        return { q with errors := locateIn t? e :: q.errors }
      | none   => .error f
    | .ok i    => do
      let q ← p.parseAll t? rest
      return { q with invocations := i :: q.invocations }

/-- Reads the directives of a comment without expanding them. -/
def parse (p : Processor) (comment : String) (t? : Option Target) : Except Fault Parsed :=
  p.parseAll t? (Directive.scan comment)

end Processor

end DocDirective
