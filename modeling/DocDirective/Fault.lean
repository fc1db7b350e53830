import DocDirective.AnnotationError
import DocDirective.Kind.Conversion

/-!
# Fault

Everything that can end an operation on directives.  The errors about a directive are reported and
leave the other directives alone; the rest end the pass they happen in.
-/

namespace DocDirective

/-- The states of an invocation. -/
inductive Stage
  | parsed
  | typeChecked
  | validated
  | bound
  | expanded
  | failed
  deriving DecidableEq, Repr

/-- The word for a state. -/
def Stage.label : Stage → String
  | .parsed      => "parsed"
  | .typeChecked => "type_checked"
  | .validated   => "validated"
  | .bound       => "bound"
  | .expanded    => "expanded"
  | .failed      => "failed"

/-- What can end an operation; the last is whatever else a kind of its own, or a reader of
documents, may end in. -/
inductive Fault
  | reported        (e : AnnotationError)
  | batch           (b : ErrorBatch)
  | outOfRange
  | overlong        (o : Overlong)
  | unfit           (u : Unfit)
  | alreadyBound    (kind : String)
  | alreadyExpanded (kind : String) (stage : Stage)
  | noTargets       (kind : String)
  | other           (message : String)

/-- The wording of a fault. -/
def Fault.message : Fault → String
  | .reported e          => e.message
  | .batch b             => b.message
  | .outOfRange          => "list index out of range"
  | .overlong o          => o.message
  | .unfit u             => u.message
  | .alreadyBound k      => s!"{k} parameters were already bound"
  | .alreadyExpanded k s => s!"{k} was already expanded ({s.label})"
  | .noTargets k         => s!"'{k}' object has no attribute 'applies_to'"
  | .other m             => m

/-- The error about a directive that the fault is, where it is one; a batch is one as well. -/
def Fault.error? : Fault → Option AnnotationError
  | .reported e         => some e
  | .batch b            => some b.error
  | .outOfRange         => none
  | .overlong _         => none
  | .unfit _            => none
  | .alreadyBound _     => none
  | .alreadyExpanded .. => none
  | .noTargets _        => none
  | .other _            => none

/-- What the fault says against a value, where it is of the sort that a conversion turns a value
down with. -/
def Fault.unfit? : Fault → Option Unfit
  | .unfit u            => some u
  | .overlong o         => some (.overlong o)
  | .reported _         => none
  | .batch _            => none
  | .outOfRange         => none
  | .alreadyBound _     => none
  | .alreadyExpanded .. => none
  | .noTargets _        => none
  | .other _            => none

/-- Lifts the failure of a text of a value. -/
def Fault.ofOverlong {α : Type} : Except Overlong α → Except Fault α
  | .ok a    => .ok a
  | .error o => .error (.overlong o)

/-- Lifts the failure of a conversion. -/
def Fault.ofUnfit {α : Type} : Except Unfit α → Except Fault α
  | .ok a    => .ok a
  | .error u => .error (.unfit u)

@[simp] theorem Fault.ofUnfit_ok {α : Type} (a : α) : ofUnfit (.ok a) = .ok a := rfl

@[simp] theorem Fault.ofUnfit_error {α : Type} (u : Unfit) :
    (ofUnfit (.error u) : Except Fault α) = .error (.unfit u) := rfl

end DocDirective
