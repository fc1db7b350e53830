import DocDirective.Directive
import DocDirective.Target

/-!
# Source

Documented classes: the comment of the class, and its members with their comments, in the order in
which they stand.
-/

namespace DocDirective

/-- An element and its comment. -/
structure ElementSource where
  target  : Target
  comment : String := ""
  deriving DecidableEq, Repr

/-- The directives of the comment, each with the element that it is about. -/
def ElementSource.directives (s : ElementSource) : List (Target × Directive) :=
  (Directive.scan s.comment).map fun d => (s.target, d)

/-- A class with its comment and its members. -/
structure ClassSource where
  target  : Target
  comment : String := ""
  members : List ElementSource := []
  ofClass : target.kind = .ofClass := by rfl

namespace ClassSource

/-- What is said of a target that is no class. -/
def notAClassMessage (t : Target) : String :=
  s!"ClassSource target must be a class, got {t.kind.label}"

/-- The class, if the target is one. -/
def mk? (target : Target) (comment : String) (members : List ElementSource) : Option ClassSource :=
  if h : target.kind = .ofClass then some ⟨target, comment, members, h⟩ else none

/-- The class itself, then its members. -/
def elements (s : ClassSource) : List ElementSource := ⟨s.target, s.comment⟩ :: s.members

/-- Every directive of the class, in order, each with the element that it is about. -/
def directives (s : ClassSource) : List (Target × Directive) := s.elements.flatMap (·.directives)

end ClassSource

end DocDirective
