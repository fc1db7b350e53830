import DocDirective.Disk.Basic
import DocDirective.Fault
import DocDirective.Text.Utf8

/-!
# Disk — Document

The value in a file.  What the text of a document means is up to a reader; a file with nothing in it
holds an empty mapping, whatever the reader is.
-/

namespace DocDirective

/-- Why a text has no value: it is not of the form of a document, or reading it ends in a fault. -/
inductive DocumentFault
  | malformed (message : String)
  | broken    (f : Fault)

/-- What gives the value of a text, made of null, truth values, numbers and texts. -/
abbrev DocumentReader := String → Except DocumentFault Value

/-- Why a file has no value. -/
inductive ReadError
  | isDirectory (path : Path)
  | notFound    (path : Path)
  | malformed   (name message : String)
  | undecodable (e : Text.Utf8Error)
  | broken      (f : Fault)

/-- The wording of the failure. -/
def ReadError.message : ReadError → String
  | .isDirectory p => s!"Failed to read {p.text}: [Errno 21] Is a directory: {Text.quoted p.text}"
  | .notFound p    =>
    s!"Failed to read {p.text}: [Errno 2] No such file or directory: {Text.quoted p.text}"
  | .malformed n m => s!"Failed to parse {n}: {m}"
  | .undecodable e => e.message
  | .broken f      => f.message

namespace Disk

/-- The value of a text, with an empty mapping for nothing. -/
def valueOf (read : DocumentReader) (name text : String) : Except ReadError Value :=
  if Text.isBlankText text then .ok (.map [])
  else match read text with
    | .ok .null             => .ok (.map [])
    | .ok v                 => .ok v
    | .error (.malformed m) => .error (.malformed name m)
    | .error (.broken f)    => .error (.broken f)

/-- The value in the file at a path. -/
def readDocument (d : Disk) (read : DocumentReader) (p : Path) : Except ReadError Value :=
  match d.find p with
  | .error _          => .error (.notFound p)
  | .ok .nothing      => .error (.notFound p)
  | .ok .directory    => .error (.isDirectory p)
  | .ok (.file bytes) =>
    match Text.decode bytes with
    | .error e => .error (.undecodable e)
    | .ok text => valueOf read p.name (String.ofList (Text.unifyLines text.toList))

end Disk

end DocDirective
