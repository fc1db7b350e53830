import DocDirective.Number.Numeral
import DocDirective.Number.Shortest
import DocDirective.Text.Quoted
import DocDirective.Value.Basic

/-!
# Value — Display

Three texts of a value: `inspect` quotes texts and spells out structure, `plain` leaves a text as
it is, and `display` is how messages list parameters, with lower-case truth values and lists in
parentheses.  Each fails where a whole number has too many digits to be written.
-/

namespace DocDirective.Value

mutual

/-- The text of a value with its structure spelled out. -/
def inspect : Value → Except Overlong String
  | .null    => .ok "None"
  | .bool b  => .ok (if b then "True" else "False")
  | .int n   => Numeral.intText n
  | .float x => .ok x.text
  | .text s  => .ok (Text.quoted s)
  | .list xs => do
    let ts ← inspectItems xs
    return "[" ++ ", ".intercalate ts ++ "]"
  | .map es  => do
    let ts ← inspectEntries es
    return "\x7b" ++ ", ".intercalate ts ++ "\x7d"

/-- The texts of the items of a list. -/
def inspectItems : List Value → Except Overlong (List String)
  | []      => .ok []
  | x :: xs => do
    let t ← inspect x
    let ts ← inspectItems xs
    return t :: ts

/-- The texts of the entries of a mapping. -/
def inspectEntries : List (Value × Value) → Except Overlong (List String)
  | []             => .ok []
  | (k, v) :: rest => do
    let tk ← inspect k
    let tv ← inspect v
    let ts ← inspectEntries rest
    return (tk ++ ": " ++ tv) :: ts

end

/-- The text of a value; a text is its own. -/
def plain : Value → Except Overlong String
  | .text s => .ok s
  | v       => v.inspect

mutual

/-- The text of a value in a message about parameters. -/
def display : Value → Except Overlong String
  | .bool b  => .ok (if b then "true" else "false")
  | .list xs => do
    let ts ← displayItems xs
    return "(" ++ ", ".intercalate ts ++ ")"
  | .null    => plain .null
  | .int n   => plain (.int n)
  | .float x => plain (.float x)
  | .text s  => plain (.text s)
  | .map es  => plain (.map es)

/-- The texts of the items of a list in a message about parameters. -/
def displayItems : List Value → Except Overlong (List String)
  | []      => .ok []
  | x :: xs => do
    let t ← display x
    let ts ← displayItems xs
    return t :: ts

end

/-- The texts of values, separated by commas. -/
def displayAll (values : List Value) : Except Overlong String :=
  (displayItems values).map (", ".intercalate ·)

end DocDirective.Value
