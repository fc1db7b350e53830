import DocDirective.Number.Numeral

/-!
# Annotation error

What can be said against a directive.  Such an error concerns one directive and does not stop the
others; several of one pass are reported as a batch.
-/

namespace DocDirective

/-- What the checks of a kind found. -/
structure Findings where
  errors    : List String
  usage     : Option String := none
  misplaced : Bool := false
  deriving DecidableEq, Repr

namespace AnnotationError

/-- The causes: none in particular, arguments that cannot be read, a name that nothing is
registered under, a registry that is closed, parameters that break the rules of the kind, an element
that the kind does not apply to, and several errors that are raised as one. -/
inductive Cause (ε : Type)
  | general
  | malformed
  | unregistered
  | closed
  | invalid      (findings : Findings)
  | inapplicable (findings : Findings)
  | several      (errors : List ε)

variable {ε : Type}

/-- The name that reports give to a cause. -/
def Cause.typeName : Cause ε → String
  | .general        => "AnnotationError"
  | .malformed      => "ParseError"
  | .unregistered   => "UnknownAnnotationError"
  | .closed         => "RegistryFrozenError"
  | .invalid _      => "AnnotationValidationError"
  | .inapplicable _ => "ApplicabilityError"
  | .several _      => "AnnotationErrorGroup"

instance (c : Cause ε) : Decidable (c = .malformed) :=
  match c with
  | .malformed      => isTrue rfl
  | .general        => isFalse nofun
  | .unregistered   => isFalse nofun
  | .closed         => isFalse nofun
  | .invalid _      => isFalse nofun
  | .inapplicable _ => isFalse nofun
  | .several _      => isFalse nofun

/-- What the checks found, where the cause is a check. -/
def Cause.findings? : Cause ε → Option Findings
  | .invalid f      => some f
  | .inapplicable f => some f
  | .general        => none
  | .malformed      => none
  | .unregistered   => none
  | .closed         => none
  | .several _      => none

end AnnotationError

/-- An error about one directive, with the name of the directive and its place where known. -/
structure AnnotationError where
  cause     : AnnotationError.Cause AnnotationError
  message   : String
  directive : Option String := none
  file      : Option String := none
  line      : Option Int := none

namespace AnnotationError

/-- Fills in a place that the error does not name itself. -/
def located (e : AnnotationError) (file : Option String) (line : Option Int) : AnnotationError :=
  { e with file := e.file.or file, line := e.line.or line }

/-- The line number has too many digits to be written. -/
def overlong? (e : AnnotationError) : Option Overlong :=
  match e.line.map Numeral.intText with
  | some (.error o) => some o
  | _               => none

/-- The place in front of a line of a batch. -/
def place (e : AnnotationError) : String :=
  match e.file, e.line with
  | none,   _      => ""
  | some f, none   => s!"{f}: "
  | some f, some n => s!"{f}:{n}: "

/-- The line number has too many digits for the place in front of a line of a batch. -/
def placeOverlong? (e : AnnotationError) : Option Overlong :=
  if e.file.isSome then e.overlong? else none

/-- The errors that are raised as this one. -/
def parts (e : AnnotationError) : List AnnotationError :=
  match e.cause with
  | .several es     => es
  | .general        => [e]
  | .malformed      => [e]
  | .unregistered   => [e]
  | .closed         => [e]
  | .invalid _      => [e]
  | .inapplicable _ => [e]

/-- The error as a block of a report: its place, then its message. -/
def block (e : AnnotationError) : String :=
  let file := match e.file with
    | some f => if f.isEmpty then "<unknown>" else f
    | none   => "<unknown>"
  match e.line with
  | some n => s!"{file}:{n}: {e.message}"
  | none   => s!"{file}: {e.message}"

/-- Errors as a report, one block each. -/
def report (es : List AnnotationError) : String :=
  "\n\n".intercalate (es.map block) ++ "\n"

end AnnotationError

/-- The errors of one pass. -/
structure ErrorBatch where
  errors : List AnnotationError

namespace ErrorBatch

/-- The batch of some errors, if the places of all of them can be written. -/
def ofErrors (es : List AnnotationError) : Except Overlong ErrorBatch :=
  match es.findSome? (·.placeOverlong?) with
  | none   => .ok ⟨es⟩
  | some o => .error o

/-- How many errors there are, then one line each. -/
def message (b : ErrorBatch) : String :=
  "\n".intercalate
    (s!"{b.errors.length} annotation errors:" ::
      b.errors.map fun e => " - " ++ e.place ++ e.message)

/-- The file of the first error. -/
def file (b : ErrorBatch) : Option String := b.errors.head?.bind (·.file)

/-- The line of the first error. -/
def line (b : ErrorBatch) : Option Int := b.errors.head?.bind (·.line)

/-- The batch as one error. -/
def error (b : ErrorBatch) : AnnotationError :=
  { cause := .several b.errors, message := b.message, file := b.file, line := b.line }

end ErrorBatch

end DocDirective
