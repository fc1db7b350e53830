import DocDirective.Number.Binary64

/-!
# Value

The values that directives carry and that configuration files hold.  A directive's own values are
texts, truth values, numbers and flat lists of these; null and mappings come from files and from
callers.
-/

namespace DocDirective

/-- A value of a directive, a configuration file or a report. -/
inductive Value
  | null
  | bool  (b : Bool)
  | int   (n : Int)
  | float (x : Binary64)
  | text  (s : String)
  | list  (items : List Value)
  | map   (entries : List (Value × Value))
  deriving Inhabited

namespace Value

/-- A truth value. -/
def isBool : Value → Bool
  | .bool _ => true
  | _       => false

/-- A list. -/
def isList : Value → Bool
  | .list _ => true
  | _       => false

/-- The number that a truth value is equal to inside a list. -/
def ofBool (b : Bool) : Int := if b then 1 else 0

mutual

/-- Equality by value: numbers of either form are equal when they are the same number, a truth
value equals one or zero, and mappings are equal whatever their order. -/
def same : Value → Value → Bool
  | .null,    .null    => true
  | .bool b,  .bool c  => b == c
  | .bool b,  .int n   => ofBool b == n
  | .bool b,  .float x => x.eqInt (ofBool b)
  | .int n,   .bool b  => n == ofBool b
  | .int n,   .int m   => n == m
  | .int n,   .float x => x.eqInt n
  | .float x, .bool b  => x.eqInt (ofBool b)
  | .float x, .int n   => x.eqInt n
  | .float x, .float y => x.numEq y
  | .text s,  .text t  => s == t
  | .list xs, .list ys => sameItems xs ys
  | .map es,  .map fs  => es.length == fs.length && sameEntries es fs
  | _,        _        => false

/-- Lists of equal values. -/
def sameItems : List Value → List Value → Bool
  | [],      []      => true
  | x :: xs, y :: ys => same x y && sameItems xs ys
  | _,       _       => false

/-- Every entry of the first list is an entry of the second. -/
def sameEntries : List (Value × Value) → List (Value × Value) → Bool
  | [],             _  => true
  | (k, v) :: rest, fs => fs.any (fun f => same k f.1 && same v f.2) && sameEntries rest fs

end

/-- Membership by value, with truth values and numbers kept apart. -/
def isIn (candidate : Value) (values : List Value) : Bool :=
  values.any fun v => same v candidate && v.isBool == candidate.isBool

/-- An empty or zero value, which stands for a missing one. -/
def isBare : Value → Bool
  | .null    => true
  | .bool b  => !b
  | .int n   => n == 0
  | .float x => x.isZero
  | .text s  => s.isEmpty
  | .list xs => xs.isEmpty
  | .map es  => es.isEmpty

/-- The value under a text key of a mapping. -/
def field? (entries : List (Value × Value)) (key : String) : Option Value :=
  (entries.find? fun e => match e.1 with
    | .text k => k == key
    | _       => false).map (·.2)

/-- The mapping with text keys. -/
def record (fields : List (String × Value)) : Value :=
  .map (fields.map fun f => (.text f.1, f.2))

/-- A text, or null where there is none. -/
def ofText? : Option String → Value
  | some s => .text s
  | none   => .null

/-- A whole number, or null where there is none. -/
def ofInt? : Option Int → Value
  | some n => .int n
  | none   => .null

/-- The word for the type of a value. -/
def typeName : Value → String
  | .null    => "NoneType"
  | .bool _  => "bool"
  | .int _   => "int"
  | .float _ => "float"
  | .text _  => "str"
  | .list _  => "list"
  | .map _   => "dict"

end Value

end DocDirective
