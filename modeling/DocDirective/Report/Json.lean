import DocDirective.Value.Display

/-!
# Report — Json

Values as JSON text, two spaces of indentation for each level and ASCII only.  A value in which a
whole number has too many digits to be written has none.
-/

namespace DocDirective.Json

/-- A unit of sixteen bits in base sixteen behind `\u`. -/
def unitEscape (n : Nat) : List Char := '\\' :: 'u' :: Text.hexDigits 4 n

/-- A character inside quotes. -/
def escapeChar (c : Char) : List Char :=
  if c = '\x22' then ['\\', '\x22']
  else if c = '\\' then ['\\', '\\']
  else if c = '\n' then ['\\', 'n']
  else if c = '\r' then ['\\', 'r']
  else if c = '\t' then ['\\', 't']
  else if c.toNat = 8 then ['\\', 'b']
  else if c.toNat = 12 then ['\\', 'f']
  else if 0x20 ≤ c.toNat && c.toNat ≤ 0x7E then [c]
  else if c.toNat < 0x10000 then unitEscape c.toNat
  else
    let n := c.toNat - 0x10000
    unitEscape (0xD800 + n / 0x400) ++ unitEscape (0xDC00 + n % 0x400)

/-- A text in quotes. -/
def quoted (s : String) : String :=
  String.ofList (['\x22'] ++ s.toList.flatMap escapeChar ++ ['\x22'])

/-- A floating-point number; infinity and the undefined number have names. -/
def floatText (x : Binary64) : String :=
  match x with
  | .finite ..      => x.text
  | .infinite false => "Infinity"
  | .infinite true  => "-Infinity"
  | .nan            => "NaN"

/-- The text of a value that stands alone or as a key, without quotes around it; lists and mappings
are no keys, and have the text of any value. -/
def scalarText : Value → Except Overlong String
  | .null    => .ok "null"
  | .bool b  => .ok (if b then "true" else "false")
  | .int n   => Numeral.intText n
  | .float x => .ok (floatText x)
  | .text s  => .ok s
  | .list xs => Value.inspect (.list xs)
  | .map es  => Value.inspect (.map es)

/-- A line break and the indentation of a level. -/
def newline (level : Nat) : String := "\n" ++ String.ofList (List.replicate (2 * level) ' ')

/-- The items of a level between brackets. -/
def bracketed (opening closing : String) (level : Nat) (items : List String) : String :=
  if items.isEmpty then opening ++ closing
  else opening ++ newline (level + 1) ++ ("," ++ newline (level + 1)).intercalate items ++
    newline level ++ closing

mutual

/-- A value at a level. -/
def print (level : Nat) : Value → Except Overlong String
  | .text s  => .ok (quoted s)
  | .list xs => do
    let ts ← printItems (level + 1) xs
    return bracketed "[" "]" level ts
  | .map es  => do
    let ts ← printEntries (level + 1) es
    return bracketed "\x7b" "\x7d" level ts
  | .null    => scalarText .null
  | .bool b  => scalarText (.bool b)
  | .int n   => scalarText (.int n)
  | .float x => scalarText (.float x)

/-- The items of a list. -/
def printItems (level : Nat) : List Value → Except Overlong (List String)
  | []      => .ok []
  | x :: xs => do
    let t ← print level x
    let ts ← printItems level xs
    return t :: ts

/-- The entries of a mapping. -/
def printEntries (level : Nat) : List (Value × Value) → Except Overlong (List String)
  | []           => .ok []
  | (k, v) :: es => do
    let tk ← scalarText k
    let tv ← print level v
    let ts ← printEntries level es
    return (quoted tk ++ ": " ++ tv) :: ts

end

/-- A value as JSON text. -/
def text (v : Value) : Except Overlong String := print 0 v

end DocDirective.Json
