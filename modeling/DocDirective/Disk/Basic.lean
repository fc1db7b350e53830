import DocDirective.Disk.Path
import DocDirective.Text.Quoted

/-!
# Disk

The files that a run can see, below a working directory.  A path is followed name by name; a name
that no directory can hold is found out where its directory is reached, and not where the way to it
breaks off earlier.
-/

namespace DocDirective

/-- Why a path leads nowhere, not even to nothing. -/
inductive PathFault
  | homeless
  | tooLong (path : Path)
  | nullCharacter
  deriving DecidableEq, Repr

/-- The wording of the fault. -/
def PathFault.message : PathFault → String
  | .homeless      => "Could not determine home directory."
  | .tooLong p     => s!"[Errno 36] File name too long: {Text.quoted p.text}"
  | .nullCharacter => "embedded null byte"

/-- What stands at a path. -/
inductive Found
  | nothing
  | directory
  | file (bytes : List UInt8)
  deriving DecidableEq

/-- The working directory, the files and empty directories by the names of their absolute paths,
and the home directories of accounts by their names; that of the present account has the empty
name.  Whatever a file stands below is a directory. -/
structure Disk where
  cwd   : Path
  nodes : List (List String × Found)
  homes : List (String × Path) := []

namespace Disk

/-- The most bytes of a name. -/
def longestName : Nat := 255

/-- The most bytes of a path. -/
def longestPath : Nat := 4095

/-- What stands at the absolute path of some names. -/
def lookup (d : Disk) (names : List String) : Found :=
  match d.nodes.lookup names with
  | some f => f
  | none   =>
    if names.isPrefixOf d.cwd.names || d.nodes.any fun n => names.isPrefixOf n.1 then .directory
    else .nothing

/-- Walks down names from a place; every place on the way has to be a directory.  Nothing is known
about a name that is too long. -/
def walk? (d : Disk) (place : List String) : List String → Option Found
  | []        => some (d.lookup place)
  | n :: rest =>
    if d.lookup place = .directory then
      if longestName < n.utf8ByteSize then none
      else d.walk? (if n = ".." then place.dropLast else place ++ [n]) rest
    else some .nothing

/-- What stands at a path. -/
def find (d : Disk) (p : Path) : Except PathFault Found :=
  if p.hasNull then .error .nullCharacter
  else if longestPath < p.text.utf8ByteSize then .error (.tooLong p)
  else match d.walk? [] (d.cwd.join p).names with
    | some f => .ok f
    | none   => .error (.tooLong p)

/-- What a path is good for: the same, but a null character leads to nothing. -/
def status (d : Disk) (p : Path) : Except PathFault Found :=
  if p.hasNull then .ok .nothing else d.find p

/-- Something stands at a path. -/
def contains (d : Disk) (p : Path) : Except PathFault Bool := do
  return (← d.status p) ≠ .nothing

/-- A directory stands at a path. -/
def isDirectory (d : Disk) (p : Path) : Except PathFault Bool := do
  return (← d.status p) = .directory

/-- A file stands in a place above an absolute path. -/
def isBelowFile (d : Disk) (p : Path) : Bool :=
  (List.range p.names.length).any fun n =>
    match d.lookup (p.names.take n) with
    | .file _    => true
    | .directory => false
    | .nothing   => false

/-- Follows a tilde at the start of a path, with the name of an account behind it, to the home
directory of the account. -/
def expandHome (d : Disk) (p : Path) : Except PathFault Path :=
  match p.names with
  | first :: rest =>
    match first.toList with
    | '~' :: account =>
      if p.isAbsolute then .ok p
      else if account.contains (Char.ofNat 0) then .error .nullCharacter
      else match d.homes.lookup (String.ofList account) with
        | some home => .ok { home with names := home.names ++ rest }
        | none      => .error .homeless
    | _              => .ok p
  | []            => .ok p

/-- Adds bytes to the file of some names, which need not be there yet. -/
def append (d : Disk) (names : List String) (bytes : List UInt8) : Disk :=
  let before := match d.lookup names with
    | .file bytes => bytes
    | .directory  => []
    | .nothing    => []
  { d with nodes := (names, .file (before ++ bytes)) :: d.nodes }

end Disk

end DocDirective
