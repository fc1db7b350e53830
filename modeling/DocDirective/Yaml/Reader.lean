import DocDirective.Disk.Document
import DocDirective.Yaml.Document

/-!
# Yaml — Reader

The reader of YAML texts that the program uses.
-/

namespace DocDirective.Yaml

/-- The fault that a text of the right form is given up with. -/
def Misfit.fault : Misfit → Fault
  | .overlong o        => .overlong o
  | m@(.noDigits _)    => .unfit (.other m.message)
  | m@.noSuchCharacter => .unfit (.other m.message)
  | m@.hugeCharacter   => .other m.message

/-- Reads a document in YAML. -/
def reader : DocumentReader := fun text =>
  match read text with
  | .ok v              => .ok v
  | .error (.flaw f)   => .error (.malformed f.message)
  | .error (.misfit m) => .error (.broken m.fault)

end DocDirective.Yaml
