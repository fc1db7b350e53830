import DocDirective.Keyed
import DocDirective.Text.Casing
import DocDirective.Text.Identifier
import DocDirective.Value.Display

/-!
# Arguments — Render

Writes a directive that reads back as the given parameters.  Whatever would not survive the reading
is refused: keys that are no lower-case barewords, numbers that are not finite, texts that would
end early or could not be quoted, lists inside lists, null and mappings.
-/

namespace DocDirective.Arguments

/-- Why a directive cannot be written. -/
inductive RenderError
  | keyNotBareword    (key : String)
  | keyNotLower       (key : String)
  | notFinite         (x : Binary64)
  | trailingBackslash
  | endsEarly
  | nestedList
  | unsupported       (shown : String)
  | overlong          (o : Overlong)

/-- The wording of the refusal. -/
def RenderError.message : RenderError → String
  | .keyNotBareword k  => s!"Key {Text.quoted k} cannot be rendered as a bareword"
  | .keyNotLower k     => s!"Key {Text.quoted k} must be lower-case; keys are folded when parsed"
  | .notFinite x       => s!"Non-finite number {x.text} cannot be rendered"
  | .trailingBackslash => "Strings ending in a backslash cannot be quoted"
  | .endsEarly         =>
    "Strings with line breaks or a comment terminator end the directive early"
  | .nestedList        => "Lists may only be nested one level deep"
  | .unsupported t     => s!"Unsupported parameter value: {t}"
  | .overlong o        => o.message

/-- A value of a type that no directive carries. -/
def refuse (v : Value) : Except RenderError String :=
  match v.inspect with
  | .ok t    => .error (.unsupported t)
  | .error o => .error (.overlong o)

/-- The characters `*/` stand somewhere in a text. -/
def hasTerminator : List Char → Bool
  | []        => false
  | c :: rest => (c = '*' && rest.head? = some '/') || hasTerminator rest

/-- A text between single quotes. -/
def quote (s : String) : String :=
  String.ofList
    (['\x27'] ++ s.toList.flatMap (fun c => if c = '\x27' then ['\\', c] else [c]) ++ ['\x27'])

/-- Writes a value that is not a list. -/
def renderScalar : Value → Except RenderError String
  | .bool b  => .ok (if b then "true" else "false")
  | .int n   => match Numeral.intText n with
    | .ok t    => .ok t
    | .error o => .error (.overlong o)
  | .float x => if x.isFinite then .ok x.text else .error (.notFinite x)
  | .text s  =>
    if s.toList.getLast? = some '\\' then .error .trailingBackslash
    else if s.toList.any (fun c => c = '\n' || c = '\r') || hasTerminator s.toList then
      .error .endsEarly
    else .ok (quote s)
  | .null    => refuse .null
  | .list xs => refuse (.list xs)
  | .map es  => refuse (.map es)

/-- Writes an item of a list. -/
def renderItem (v : Value) : Except RenderError String :=
  if v.isList then .error .nestedList else renderScalar v

/-- Writes a value. -/
def renderValue : Value → Except RenderError String
  | .list xs => do
    let ts ← xs.mapM renderItem
    return "(" ++ ", ".intercalate ts ++ ")"
  | v        => renderScalar v

/-- A character that may follow in a key that is written as it is. -/
def isKeyPart (c : Char) : Bool := Text.isIdentPart c || c = '.' || c = '-'

/-- A key that can be written as it is, but for its case. -/
def isKey : List Char → Bool
  | []        => false
  | c :: rest => Text.isIdentStart c && rest.all isKeyPart

/-- Writes a value under a key. -/
def renderKeyed (e : String × Value) : Except RenderError String :=
  if !isKey e.1.toList then .error (.keyNotBareword e.1)
  else if e.1 ≠ Text.lowered e.1 then .error (.keyNotLower e.1)
  else do
    let t ← renderValue e.2
    return e.1 ++ ": " ++ t

/-- Writes a directive. -/
def render (name : String) (positional : List Value) (keyed : Keyed Value) :
    Except RenderError String := do
  let ps ← positional.mapM renderValue
  let ks ← keyed.entries.mapM renderKeyed
  return if (ps ++ ks).isEmpty then "!" ++ name
    else "!" ++ name ++ " " ++ ", ".intercalate (ps ++ ks)

end DocDirective.Arguments
