/-!
# Disk — Path

Paths as rows of names.  A path drops empty names and dots when it is read and keeps two dots,
which are followed only where a path is made absolute.  Two slashes at its start are told apart from
one; three or more are as one.
-/

namespace DocDirective

/-- A path: how many slashes it starts with, which are none, one or two, and its names. -/
structure Path where
  slashes : Nat
  names   : List String
  deriving DecidableEq, Repr

namespace Path

/-- How many of the slashes at the start of a text a path keeps. -/
def leading (cs : List Char) : Nat :=
  match (cs.takeWhile (· = '/')).length with
  | 0 => 0
  | 2 => 2
  | _ => 1

/-- The path that a text writes. -/
def ofText (s : String) : Path :=
  ⟨leading s.toList, (s.splitOn "/").filter fun n => n ≠ "" && n ≠ "."⟩

/-- A path that starts at the root. -/
def isAbsolute (p : Path) : Bool := p.slashes ≠ 0

/-- The text of a path. -/
def text (p : Path) : String :=
  if p.slashes = 0 && p.names.isEmpty then "."
  else String.ofList (List.replicate p.slashes '/') ++ "/".intercalate p.names

/-- A path below another; an absolute one stands for itself. -/
def join (p q : Path) : Path :=
  if q.isAbsolute then q else { p with names := p.names ++ q.names }

/-- A name below a path. -/
def child (p : Path) (name : String) : Path := { p with names := p.names ++ [name] }

/-- The last name. -/
def name (p : Path) : String := p.names.getLast?.getD ""

/-- The path without its last name. -/
def parent (p : Path) : Path := { p with names := p.names.dropLast }

/-- A null character stands in the path. -/
def hasNull (p : Path) : Bool := p.names.any fun n => n.toList.contains (Char.ofNat 0)

/-- Names with every two dots and the name in front of them left out. -/
def follow (names : List String) : List String :=
  names.foldl (fun done n => if n = ".." then done.dropLast else done ++ [n]) []

/-- The path without two dots that a path stands for below a directory. -/
def below (p base : Path) : Path :=
  let q := base.join p
  { q with names := follow q.names }

/-- The same, with one slash at its start. -/
def resolve (p base : Path) : Path := { p.below base with slashes := 1 }

end Path

end DocDirective
