import DocDirective.Value.Basic
import DocDirective.Yaml.Error

/-!
# Yaml — Scalar

The value of a plain scalar: the words for null and the truth values, whole numbers in base two,
eight, ten, sixteen or sixty, and floating-point numbers, which have a point.  Underscores may stand
between digits.  Every other text is its own value.
-/

namespace DocDirective.Yaml

/-- The words for null. -/
def nullWords : List String := ["", "~", "null", "Null", "NULL"]

/-- The words for true. -/
def trueWords : List String := ["yes", "Yes", "YES", "true", "True", "TRUE", "on", "On", "ON"]

/-- The words for false. -/
def falseWords : List String := ["no", "No", "NO", "false", "False", "FALSE", "off", "Off", "OFF"]

/-- A sign in front of a number, if any, and what follows it. -/
def spanSign : List Char → Bool × List Char
  | '-' :: cs => (true, cs)
  | '+' :: cs => (false, cs)
  | cs        => (false, cs)

/-- The number with a sign. -/
def signed (negative : Bool) (n : Nat) : Int := if negative then -(n : Int) else n

/-- A digit of base ten or an underscore. -/
def isDigitOrBar (c : Char) : Bool := c.isDigit || c = '_'

/-- The value of a digit of base sixteen or less. -/
def digitValue (c : Char) : Nat :=
  if c.isDigit then c.toNat - 48
  else if 'a' ≤ c && c ≤ 'f' then c.toNat - 87
  else c.toNat - 55

/-- The number that digits of a base stand for. -/
def numberIn (base : Nat) (cs : List Char) : Nat :=
  (cs.filter (· ≠ '_')).foldl (fun n c => base * n + digitValue c) 0

/-- The number that digits of base ten stand for, if there are not too many. -/
def decimalNumber (cs : List Char) : Except Error Nat :=
  let digits := (cs.filter (· ≠ '_')).length
  if Overlong.limit < digits then .error (.misfit (.overlong (.reading digits)))
  else .ok (numberIn 10 cs)

/-- The number that digits of a base stand for; underscores alone are no digits. -/
def basedNumber (base : Nat) (cs : List Char) : Except Error Nat :=
  if cs.all (· = '_') then .error (.misfit (.noDigits base)) else .ok (numberIn base cs)

/-- The pieces of a text between colons. -/
def colonPieces : List Char → List (List Char)
  | []      => [[]]
  | c :: cs =>
    if c = ':' then [] :: colonPieces cs
    else match colonPieces cs with
      | []      => [[c]]
      | p :: ps => (c :: p) :: ps

/-- A digit of base sixty: one or two digits of base ten below sixty. -/
def isSixtieth (cs : List Char) : Bool :=
  match cs with
  | [a]    => a.isDigit
  | [a, b] => '0' ≤ a && a ≤ '5' && b.isDigit
  | _      => false

/-- The number that digits of base sixty stand for, the first of any size. -/
def sexagesimal (first : Nat) (rest : List (List Char)) : Nat :=
  rest.foldl (fun n p => 60 * n + numberIn 10 p) first

/-- A row of some digits that is not empty. -/
def isRow (p : Char → Bool) (cs : List Char) : Bool := !cs.isEmpty && cs.all p

/-- A digit of base two or an underscore. -/
def isBinary (c : Char) : Bool := c = '0' || c = '1' || c = '_'

/-- A digit of base eight or an underscore. -/
def isOctal (c : Char) : Bool := ('0' ≤ c && c ≤ '7') || c = '_'

/-- A digit of base sixteen or an underscore. -/
def isHex (c : Char) : Bool :=
  isDigitOrBar c || ('a' ≤ c && c ≤ 'f') || ('A' ≤ c && c ≤ 'F')

/-- The whole number without its sign, where the text is one. -/
def magnitude? (cs : List Char) : Option (Except Error Nat) :=
  match cs with
  | ['0']           => some (.ok 0)
  | '0' :: 'b' :: ds => if isRow isBinary ds then some (basedNumber 2 ds) else none
  | '0' :: 'x' :: ds => if isRow isHex ds then some (basedNumber 16 ds) else none
  | '0' :: ds        => if isRow isOctal ds then some (.ok (numberIn 8 ds)) else none
  | _                =>
    match colonPieces cs with
    | []            => none
    | first :: rest =>
      if first.head?.any Char.isDigit && first.all isDigitOrBar && rest.all isSixtieth then
        some ((decimalNumber first).map (sexagesimal · rest))
      else none

/-- The whole number that a text is. -/
def int? (cs : List Char) : Option (Except Error Int) :=
  let (negative, cs) := spanSign cs
  (magnitude? cs).map fun n => n.map (signed negative)

/-- The exponent behind a fraction has a sign; none at all is fine too. -/
def isExponent : List Char → Bool
  | []           => true
  | e :: s :: ds => (e = 'e' || e = 'E') && (s = '-' || s = '+') && isRow Char.isDigit ds
  | _            => false

/-- The number that a text with a point stands for, once its form is known. -/
def pointNumber (negative : Bool) (cs : List Char) : Option Binary64 :=
  (Numeral.read? (cs.filter (· ≠ '_'))).map fun n => ({ n with negative } : Numeral).toBinary64

/-- The number whose whole part is in base sixty. -/
def sexagesimalPoint (negative : Bool) (first : List Char) (rest : List (List Char))
    (fraction : List Char) : Binary64 :=
  let digits := fraction.filter (· ≠ '_')
  .ofDecimal negative
    (sexagesimal (numberIn 10 first) rest * Nat.pow 10 digits.length + numberIn 10 digits)
    (-(digits.length : Int))

/-- The floating-point number that a text is. -/
def float? (cs : List Char) : Option Binary64 :=
  let (negative, body) := spanSign cs
  let isSigned := body.length ≠ cs.length
  if String.ofList body ∈ [".inf", ".Inf", ".INF"] then some (.infinite negative)
  else if !isSigned && String.ofList body ∈ [".nan", ".NaN", ".NAN"] then some .nan
  else
    let whole := body.takeWhile (· ≠ '.')
    match body.dropWhile (· ≠ '.') with
    | []        => none
    | _ :: rest =>
      let fraction := rest.takeWhile isDigitOrBar
      let behind   := rest.dropWhile isDigitOrBar
      if whole.isEmpty then
        if !isSigned && fraction.head?.any Char.isDigit && isExponent behind then
          pointNumber negative body
        else none
      else match colonPieces whole with
        | []            => none
        | [first]       =>
          if first.head?.any Char.isDigit && first.all isDigitOrBar && isExponent behind then
            pointNumber negative body
          else none
        | first :: more =>
          if first.head?.any Char.isDigit && first.all isDigitOrBar && more.all isSixtieth &&
              behind.isEmpty then
            some (sexagesimalPoint negative first more fraction)
          else none

/-- The value of a plain scalar. -/
def plainValue (s : String) : Except Error Value :=
  if s ∈ nullWords then .ok .null
  else if s ∈ trueWords then .ok (.bool true)
  else if s ∈ falseWords then .ok (.bool false)
  else match float? s.toList with
    | some x => .ok (.float x)
    | none   => match int? s.toList with
      | some n => n.map .int
      | none   => .ok (.text s)

end DocDirective.Yaml
