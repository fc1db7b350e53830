import DocDirective.Number.Binary64
import DocDirective.Text.Blank
import DocDirective.Text.Casing
import DocDirective.Text.Digit

/-!
# Number — Numeral

Numbers as they are written: an optional sign, digits of any script, an optional fraction and an
optional exponent.  `Numeral.read?` accepts exactly the texts of that form.  Whole numbers are read
and written up to 4300 digits; beyond that both directions fail.
-/

namespace DocDirective

/-- A whole number with too many digits to be converted. -/
inductive Overlong
  | reading (digits : Nat)
  | writing
  deriving DecidableEq, Repr

namespace Overlong

/-- The most digits that a whole number is read from or written with. -/
def limit : Nat := 4300

/-- The wording of the failure. -/
def message : Overlong → String
  | .reading n =>
    s!"Exceeds the limit ({limit} digits) for integer string conversion: value has {n} digits; " ++
      "use sys.set_int_max_str_digits() to increase the limit"
  | .writing   =>
    s!"Exceeds the limit ({limit} digits) for integer string conversion; " ++
      "use sys.set_int_max_str_digits() to increase the limit"

end Overlong

/-- The parts of a written number; digits are kept by value. -/
structure Numeral where
  negative : Bool
  whole    : List Nat
  fraction : Option (List Nat)
  exponent : Option Int
  deriving DecidableEq

namespace Numeral

/-- The digits in front of a text, by value, and what follows them. -/
def spanDigits : List Char → List Nat × List Char
  | []        => ([], [])
  | c :: rest =>
    match Text.digitValue? c with
    | some d => (d :: (spanDigits rest).1, (spanDigits rest).2)
    | none   => ([], c :: rest)

/-- A sign in front of a text, if any, and what follows it. -/
def spanSign : List Char → Bool × List Char
  | '-' :: rest => (true, rest)
  | '+' :: rest => (false, rest)
  | cs          => (false, cs)

/-- The number that a row of digits stands for. -/
def ofDigits (ds : List Nat) : Nat := ds.foldl (fun n d => 10 * n + d) 0

/-- The exponent that is all of a text. -/
def readExponent? (cs : List Char) : Option Int :=
  let (negative, rest) := spanSign cs
  match spanDigits rest with
  | ([], _)  => none
  | (ds, []) => some (if negative then -(ofDigits ds : Int) else ofDigits ds)
  | _        => none

/-- Completes a number whose whole part and fraction are read. -/
def finish? (negative : Bool) (whole : List Nat) (fraction : Option (List Nat)) :
    List Char → Option Numeral
  | []        => some ⟨negative, whole, fraction, none⟩
  | c :: rest =>
    if c = 'e' || c = 'E' then
      (readExponent? rest).map fun e => ⟨negative, whole, fraction, some e⟩
    else none

/-- The number that is all of a text.  There is a digit before the exponent. -/
def read? (cs : List Char) : Option Numeral :=
  let (negative, rest) := spanSign cs
  let (whole, rest)    := spanDigits rest
  match rest with
  | '.' :: rest =>
    let (fraction, rest) := spanDigits rest
    if whole.isEmpty && fraction.isEmpty then none
    else finish? negative whole (some fraction) rest
  | rest => if whole.isEmpty then none else finish? negative whole none rest

/-- Neither a fraction nor an exponent. -/
def isWhole (n : Numeral) : Bool := n.fraction.isNone && n.exponent.isNone

/-- The value of a written whole number. -/
def toInt (n : Numeral) : Except Overlong Int :=
  if Overlong.limit < n.whole.length then .error (.reading n.whole.length)
  else .ok (if n.negative then -(ofDigits n.whole : Int) else ofDigits n.whole)

/-- The floating-point number nearest to what is written. -/
def toBinary64 (n : Numeral) : Binary64 :=
  let fraction := n.fraction.getD []
  Binary64.ofDecimal n.negative (ofDigits (n.whole ++ fraction))
    (n.exponent.getD 0 - fraction.length)

/-- A text without the underscores in it, each of which must stand between two digits. -/
def joinGroups? (afterDigit : Bool) : List Char → Option (List Char)
  | []          => some []
  | '_' :: rest =>
    if afterDigit && rest.head?.any Text.isDigit then joinGroups? false rest else none
  | c :: rest   => (joinGroups? (Text.isDigit c) rest).map (c :: ·)

/-- A blank that may stand around a number: any but the information separators. -/
def isPadding (c : Char) : Bool :=
  Text.isBlank c && !(0x1C ≤ c.toNat && c.toNat ≤ 0x1F)

/-- A text without the blanks around it. -/
def unpadded (cs : List Char) : List Char :=
  ((cs.dropWhile isPadding).reverse.dropWhile isPadding).reverse

/-- The number in a text that may have blanks around it and underscores between digits. -/
def readLoose? (s : String) : Option Numeral :=
  (joinGroups? false (unpadded s.toList)).bind read?

/-- The whole number in a text that may have blanks around it and underscores between digits. -/
def looseInt? (s : String) : Option Int :=
  match readLoose? s with
  | some n => if n.isWhole then n.toInt.toOption else none
  | none   => none

/-- The floating-point number in a text, which may also name infinity or an undefined number. -/
def looseBinary64? (s : String) : Option Binary64 :=
  let (negative, name) := spanSign (unpadded s.toList)
  let name := Text.lowered (String.ofList name)
  if name = "inf" || name = "infinity" then some (.infinite negative)
  else if name = "nan" then some .nan
  else (readLoose? s).map toBinary64

/-- The digits of a whole number, with a sign in front of a negative one. -/
def intChars (n : Int) : List Char :=
  (if n < 0 then ['-'] else []) ++ Nat.toDigits 10 n.natAbs

/-- The text of a whole number. -/
def intText (n : Int) : Except Overlong String :=
  if Overlong.limit < (Nat.toDigits 10 n.natAbs).length then .error .writing
  else .ok (String.ofList (intChars n))

end Numeral

end DocDirective
