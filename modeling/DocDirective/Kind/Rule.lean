import DocDirective.Fault
import DocDirective.Parameters
import DocDirective.Target

/-!
# Kind — Rule

The rules that kinds put their parameters under.  A rule lists its complaints in the order in which
it finds them; where a complaint cannot be worded, or the parameters are not there any more, the
list ends with the fault.  No rule changes anything.
-/

namespace DocDirective

/-- What a rule looks at: the name of the kind, the parameters while they are there, and the
element. -/
structure Subject where
  kind       : String
  parameters : Option Parameters
  target     : Option Target

/-- Complaints in order, up to a fault. -/
abbrev Complaints := List (Except Fault String)

/-- The complaints of a look at the parameters. -/
def Subject.withParameters (s : Subject) (f : Parameters → Complaints) : Complaints :=
  match s.parameters with
  | some p => f p
  | none   => [.error (.alreadyBound s.kind)]

/-- The rules. -/
inductive Rule
  | acceptedKeys           (keys : List String)
  | requiredKeys           (keys : List String)
  | acceptedKeylessValues  (values : List Value) (case? : Option Case)
  | acceptedIndexedValues  (index : Int) (values : List Value) (case? : Option Case)
  | acceptedValuesForKey   (key : String) (values : List Value) (case? : Option Case)
  | acceptsNoKeylessValues
  | acceptsNoKeyedValues
  | validOnSubclassesOf    (annotated base : String)
  | minimumCount           (count : Int)
  | maximumCount           (count : Int)
  | exactCount             (count : Int)

namespace Rule

/-- A complaint that is there if a condition fails. -/
def demand (holds : Bool) (complaint : String) : Complaints :=
  if holds then [] else [.ok complaint]

/-- A complaint that has to be worded first. -/
def worded (complaint : Except Overlong String) : Complaints := [Fault.ofOverlong complaint]

/-- What is said of a key that is not known. -/
def unknownKey (key : String) : String := s!"Invalid parameter: \"{key}\"."

/-- The keys that are not among those accepted. -/
def keyComplaints (keys : List String) (p : Parameters) : Complaints :=
  (p.keyed.keys.filter fun k => k ∉ keys.map Text.lowered).map fun k => .ok (unknownKey k)

/-- The values without a key that are not among those accepted. -/
def keylessComplaints (values : List Value) (case? : Option Case) (p : Parameters) : Complaints :=
  (p.positional.filter fun v => !(foldBy case? v).isIn values).flatMap fun v =>
    worded (v.display.map fun t => s!"Unknown parameter: \"{t}\".")

/-- The value at a place counted from the start, or from the end if the place is negative. -/
def valueAt (values : List Value) (index : Int) : Option Value :=
  if 0 ≤ index then values[index.toNat]?
  else if 0 ≤ index + values.length then values[(index + values.length).toNat]?
  else none

/-- A value in a message about the values allowed in its place. -/
def misfit (subject : String) (v : Value) (valid : String) : Complaints :=
  worded (v.display.map fun t => s!"{subject} is set to \"{t}\". Valid values: {valid}.")

/-- The value at a place, which has to be there, is among those accepted. -/
def indexedComplaints (index : Int) (values : List Value) (case? : Option Case) (p : Parameters) :
    Complaints :=
  match Value.displayAll values with
  | .error o  => [.error (.overlong o)]
  | .ok valid =>
    if p.positional.length ≤ index then
      [.ok s!"Parameter {index} is missing. Valid values: {valid}."]
    else match valueAt p.positional index with
      | none   => [.error .outOfRange]
      | some v =>
        if (foldBy case? v).isIn values then [] else misfit s!"Parameter {index}" v valid

/-- The value under a key, if it is there, is among those accepted. -/
def keyedComplaints (key : String) (values : List Value) (case? : Option Case) (p : Parameters) :
    Complaints :=
  let key := Text.lowered key
  match p.get? key with
  | none   => []
  | some v =>
    if (foldBy case? v).isIn values then []
    else match Value.displayAll values with
      | .error o  => [.error (.overlong o)]
      | .ok valid => misfit s!"The \"{key}\" parameter" v valid

/-- The ancestors that count for a class: those of the element, if it belongs to that class. -/
def ancestorsOf (target : Option Target) (annotated : String) : List String :=
  match target with
  | some t => if t.className = annotated then t.ancestors else []
  | none   => []

/-- The complaints of a rule. -/
def complaints (s : Subject) : Rule → Complaints
  | .acceptedKeys keys =>
    s.withParameters fun p => keyComplaints keys p
  | .requiredKeys keys =>
    keys.flatMap fun k => s.withParameters fun p =>
      demand (p.has k) s!"{s.kind} requires a '{Text.lowered k}' parameter."
  | .acceptedKeylessValues values case? =>
    s.withParameters fun p => keylessComplaints values case? p
  | .acceptedIndexedValues index values case? =>
    s.withParameters fun p => indexedComplaints index values case? p
  | .acceptedValuesForKey key values case? =>
    s.withParameters fun p => keyedComplaints key values case? p
  | .acceptsNoKeylessValues =>
    s.withParameters fun p => keylessComplaints [] none p
  | .acceptsNoKeyedValues =>
    s.withParameters fun p => keyComplaints [] p
  | .validOnSubclassesOf annotated base =>
    demand (base ∈ ancestorsOf s.target annotated)
      s!"{s.kind} is only valid on objects of type {base}."
  | .minimumCount n =>
    s.withParameters fun p => demand (n ≤ p.size) s!"{s.kind} takes at least {n} parameters."
  | .maximumCount n =>
    s.withParameters fun p => demand (p.size ≤ n) s!"{s.kind} takes at most {n} parameters."
  | .exactCount n =>
    s.withParameters fun p =>
      demand ((p.size : Int) = n) s!"{s.kind} requires exactly {n} parameters."

end Rule

end DocDirective
