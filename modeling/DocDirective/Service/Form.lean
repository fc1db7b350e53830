import DocDirective.Source

/-!
# Service — Form

The class that a request asks to be expanded, as it is described (`ClassForm`); `ClassForm.source`
gives the class with its members, each below the file of the class unless it names its own.
-/

namespace DocDirective.Service

/-- A member of a described class. -/
structure MemberForm where
  kind    : String
  name    : String
  comment : String := ""
  file    : Option String := none
  line    : Option Int := none
  deriving DecidableEq, Repr

/-- A described class. -/
structure ClassForm where
  className : String
  comment   : String := ""
  file      : Option String := none
  line      : Option Int := none
  ancestors : List String := []
  members   : List MemberForm := []
  deriving DecidableEq, Repr

/-- Why a described class has no source. -/
inductive FormError
  | unknownKind   (kind : String)
  | memberIsClass (name : String)
  deriving DecidableEq, Repr

/-- The wording of the failure. -/
def FormError.message : FormError → String
  | .unknownKind k   => ElementKind.unknownMessage k
  | .memberIsClass n => s!"Member \"{n}\" must be a method or a property"

/-- A file name, unless it is empty. -/
def nonEmpty? (file : Option String) : Option String := file.filter fun f => !f.isEmpty

/-- The source of a member. -/
def MemberForm.source (c : ClassForm) (m : MemberForm) : Except FormError ElementSource :=
  match ElementKind.parse? m.kind with
  | none          => .error (.unknownKind m.kind)
  | some .ofClass => .error (.memberIsClass m.name)
  | some kind     =>
    let file := (nonEmpty? m.file).or c.file
    .ok ⟨⟨kind, c.className, m.name, file, m.line, c.ancestors⟩, m.comment⟩

/-- The source of a class. -/
def ClassForm.source (c : ClassForm) : Except FormError ClassSource := do
  let members ← c.members.mapM (MemberForm.source c)
  let target := Target.forClass c.className c.file c.line c.ancestors
  return { target, comment := c.comment, members }

end DocDirective.Service
