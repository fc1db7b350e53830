import DocDirective.Number.Numeral

/-!
# Service — Whole

Whole numbers in the texts of bodies.  A text that is a number as it stands is taken at once;
another is tidied first: blanks around it go, and a plus sign, zeros in front, zeros behind a point,
and single underscores inside.
-/

namespace DocDirective.Service.Whole

/-- What a text gives that is no whole number of a size that is read. -/
inductive Problem
  | unreadable
  | tooLong
  deriving DecidableEq, Repr

/-- The most characters that are read, with the minus sign. -/
def longest : Nat := Overlong.limit

/-- A whole number without any liberties: zero, or digits that do not begin with it, perhaps behind
a minus sign.  Digits that are too many are found out before anything behind them. -/
def strict (cs : List Char) : Except Problem Int :=
  let (negative, body) := match cs with
    | '-' :: body => (true, body)
    | body        => (false, body)
  let digits := body.takeWhile Char.isDigit
  let rest   := body.dropWhile Char.isDigit
  let value  := Numeral.ofDigits (digits.map fun c => c.toNat - 48)
  match digits with
  | []       => .error .unreadable
  | '0' :: _ => if digits.length = 1 && rest.isEmpty then .ok 0 else .error .unreadable
  | _        =>
    if longest < digits.length + cs.length - body.length then .error .tooLong
    else if rest.isEmpty then .ok (if negative then -(value : Int) else value)
    else .error .unreadable

/-- What is left of a text behind the zeros in front of it and the underscores among them, once it
has begun with a zero.  The last zero stays where no digit and no minus sign follows. -/
def behindZeros (last : Char) : List Char → Option (List Char)
  | []        => some [last]
  | c :: rest =>
    if c = '0' || c = '_' then behindZeros c rest
    else if c.isDigit || c = '-' then some (c :: rest)
    else if c = '.' then some (last :: c :: rest)
    else none

/-- A text that begins with a digit, without the zeros in front. -/
def withoutZeros : List Char → Option (List Char)
  | []        => none
  | c :: rest =>
    if c = '0' then behindZeros c rest
    else if c.isDigit then some (c :: rest)
    else none

/-- A text without a point that only zeros follow. -/
def withoutFraction (cs : List Char) : List Char :=
  match cs.dropWhile (· ≠ '.') with
  | _ :: zeros =>
    if !zeros.isEmpty && zeros.all (· = '0') then cs.takeWhile (· ≠ '.') else cs
  | []         => cs

/-- Two underscores stand next to each other. -/
def doublesBar : List Char → Bool
  | '_' :: '_' :: _ => true
  | _ :: rest       => doublesBar rest
  | []              => false

/-- A text without its underscores, which have to be single and inside. -/
def withoutBars (cs : List Char) : List Char :=
  if cs.head? = some '_' || cs.getLast? = some '_' || doublesBar cs then cs
  else cs.filter (· ≠ '_')

/-- A text without its sign tidied up. -/
def tidyBody? (cs : List Char) : Option (List Char) :=
  (withoutZeros cs).map fun cs => withoutBars (withoutFraction cs)

/-- A text tidied up. -/
def tidy? (cs : List Char) : Option (List Char) :=
  match Numeral.unpadded cs with
  | '+' :: body => tidyBody? body
  | '-' :: body => (tidyBody? body).map ('-' :: ·)
  | body        => tidyBody? body

/-- The whole number in a text. -/
def ofText (s : String) : Except Problem Int :=
  match strict s.toList with
  | .error .unreadable =>
    match tidy? s.toList with
    | some cs => strict cs
    | none    => .error .unreadable
  | result             => result

end DocDirective.Service.Whole
