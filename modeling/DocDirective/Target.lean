import DocDirective.Text.Blank
import DocDirective.Text.Casing
import DocDirective.Text.Quoted

/-!
# Target

The elements of a program that carry doc comments: classes, their methods and their properties.  A
mask is a set of element kinds, written as a sum of their bits.
-/

namespace DocDirective

/-- The kinds of documented elements. -/
inductive ElementKind
  | ofClass
  | ofMethod
  | ofProperty
  deriving DecidableEq, Repr

namespace ElementKind

/-- Every kind, in the order in which masks list them. -/
def all : List ElementKind := [.ofClass, .ofMethod, .ofProperty]

/-- The bit of a kind in a mask. -/
def bit : ElementKind → Int
  | .ofClass    => 1
  | .ofMethod   => 2
  | .ofProperty => 4

/-- The word for one element of a kind. -/
def label : ElementKind → String
  | .ofClass    => "class"
  | .ofMethod   => "method"
  | .ofProperty => "property"

/-- The word for several elements of a kind. -/
def plural : ElementKind → String
  | .ofClass    => "classes"
  | .ofMethod   => "methods"
  | .ofProperty => "properties"

/-- The word for several elements at the head of a title. -/
def title (k : ElementKind) : String := Text.capitalized k.plural

/-- The kind that a word names, in any case and with blanks around it. -/
def parse? (s : String) : Option ElementKind :=
  let key := Text.lowered (Text.trimmed s)
  all.find? fun k => key = k.label || key = k.plural

/-- What is said of a word that names no kind. -/
def unknownMessage (s : String) : String := s!"Unknown element kind: {Text.quoted s}"

end ElementKind

/-- A set of element kinds; other bits are allowed and stand for nothing. -/
structure Mask where
  bits : Int
  deriving DecidableEq, Repr

namespace Mask

/-- The kind is in the set. -/
def contains (m : Mask) (k : ElementKind) : Bool := m.bits / k.bit % 2 == 1

/-- The kinds in the set, in order. -/
def members (m : Mask) : List ElementKind := ElementKind.all.filter m.contains

end Mask

/-- One documented element; `ancestors` lists the classes that its class inherits from, nearest
first. -/
structure Target where
  kind      : ElementKind
  className : String
  name      : String
  file      : Option String := none
  line      : Option Int := none
  ancestors : List String := []
  deriving DecidableEq, Repr

/-- The target of a class itself. -/
def Target.forClass (className : String) (file : Option String) (line : Option Int)
    (ancestors : List String) : Target :=
  ⟨.ofClass, className, className, file, line, ancestors⟩

end DocDirective
