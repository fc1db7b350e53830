import DocDirective.Descriptor
import DocDirective.Kind.Converter
import DocDirective.Kind.Rule

/-!
# Kind

A kind of directive: its name, the elements it applies to, the keys it binds, the checks its
parameters pass, and what it then does to a descriptor.  The directive `!Route` belongs to the kind
`RouteAnnotation`.
-/

namespace DocDirective

namespace Field

/-- The name of the parameters of an invocation. -/
def parametersName : String := "parameters"

/-- The other names under which an invocation has something of its own. -/
def takenNames : List String := [
  "errors", "values", "target", "state", "_converted", "applies_to", "fields", "usage", "validate",
  "expand", "canonical_name", "identifier", "is_for", "params", "accepted_keys", "required_keys",
  "accepted_keyless_values", "accepted_indexed_values", "accepted_values_for_key",
  "accepts_no_keyless_values", "accepts_no_keyed_values", "valid_on_subclasses_of",
  "minimum_parameter_count", "maximum_parameter_count", "exact_parameter_count", "is_a_value",
  "value_not_in", "_all_values", "expand_annotation", "_convert_fields", "_bind", "_failure",
  "_error"]

/-- A slot takes no name that an invocation has something under.  The parameters are the exception:
an empty slot of their name may stand in front of them. -/
def isFree (slot : String) (default : Value) : Bool :=
  slot ∉ takenNames && !(['_', '_'].isPrefixOf slot.toList)
    && (slot ≠ parametersName || default matches .null)

end Field

/-- What a key fills: a slot, by a conversion, with a default. -/
structure Field where
  slot    : String
  convert : Converter := .any
  default : Value := .null
  free    : Field.isFree slot default = true := by decide

/-- A check of a kind: a rule, whose complaints are not repeated, or a look of its own, whose
complaints are appended as they are. -/
inductive Check
  | rule (r : Rule)
  | own  (look : Subject → Complaints)

/-- What an expansion works with: the values without a key, the slots and the element. -/
structure Binding where
  kind   : String
  values : List Value
  slots  : Keyed Value
  target : Target

/-- The value of a slot, null where there is none. -/
def Binding.slot (b : Binding) (name : String) : Value := (b.slots.get? name).getD .null

/-- A kind of directive.  `serial` tells apart kinds that were declared separately; a kind may leave
its targets undeclared, and then applies nowhere.  An expansion answers with the descriptor it
leaves and with the fault that ended it, if one did. -/
structure Kind where
  name   : String
  serial : Nat
  mask   : Option Mask
  usage  : String
  fields : Keyed Field
  checks : List Check
  expand : Binding → Descriptor → Descriptor × Option Fault

namespace Kind

/-- The end of every kind's name. -/
def suffix : String := "Annotation"

/-- The part of a name in front of the common end, if there is such a part. -/
def identifierOf (name : String) : String :=
  let cs := name.toList
  let tail := suffix.toList
  if tail.isSuffixOf cs && tail.length < cs.length then
    String.ofList (cs.take (cs.length - tail.length))
  else name

/-- The name that directives use. -/
def identifier (k : Kind) : String := identifierOf k.name

/-- The bits of the elements it applies to; none where they are undeclared. -/
def bits (k : Kind) : Int := (k.mask.map (·.bits)).getD 0

/-- A slot of the kind stands in front of the parameters, which are then out of reach. -/
def hidesParameters (k : Kind) : Bool := k.fields.values.any (·.slot = Field.parametersName)

/-- A kind that differs in its name, and in its targets where they are given. -/
def renamed (k : Kind) (name : String) (serial : Nat) (mask : Option Mask) : Kind :=
  { k with name := name, serial := serial, mask := mask.or k.mask }

/-- An expansion that records what was bound, under the identifier and the element's name. -/
def recordBinding (fields : Keyed Field) (b : Binding) (d : Descriptor) :
    Descriptor × Option Fault :=
  let slots := fields.values.map fun f => .list [.text f.slot, b.slot f.slot]
  (d.set (identifierOf b.kind ++ ":" ++ b.target.name) (.list [.list b.values, .list slots]), none)

/-- An expansion that reports an error and changes nothing. -/
def reportError (e : AnnotationError) (_ : Binding) (d : Descriptor) : Descriptor × Option Fault :=
  (d, some (.reported e))

end Kind

end DocDirective
