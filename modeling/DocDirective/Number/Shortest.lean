import DocDirective.Number.Binary64

/-!
# Number — Shortest decimal

The text of a floating-point number has the fewest digits that read back as the number, and of the
texts with that many digits it is the nearest one; a tie goes to the even last digit.  One to
seventeen digits always suffice; the exact expansion stands behind them so that every answer reads
back by construction.
-/

namespace DocDirective

/-- The number `digits * 10 ^ exponent`. -/
structure Decimal where
  digits   : Nat
  exponent : Int
  deriving DecidableEq

namespace Binary64

/-- How many decimal places the search works with: enough for the smallest number's last digit. -/
def places : Nat := 400

/-- The neighbour of `num / den` that passes a test; of two that pass it the nearer one, and of two
equally near the even one. -/
def neighbour (test : Nat → Bool) (num den : Nat) : Option Nat :=
  let low := num / den
  match test low, test (low + 1) with
  | false, false => none
  | true,  false => some low
  | false, true  => some (low + 1)
  | true,  true  =>
    if 2 * (num % den) < den then some low
    else if den < 2 * (num % den) then some (low + 1)
    else some (low + low % 2)

/-- The decimal of `count` digits that reads back as `mantissa * 2 ^ shift` and is nearest to it;
`length` is the number of digits of that number shifted by `places`. -/
def onGrid (mantissa shift length count : Nat) : Option Decimal :=
  let unit := Nat.pow 10 (length - count)
  let back (d : Nat) : Bool :=
    nearest false (d * unit) (Nat.pow 10 places) = pack false mantissa shift
  (neighbour back (mantissa * Nat.pow 2 shift * Nat.pow 10 places) (Nat.pow 2 1074 * unit)).map
    fun d => ⟨d, (length : Int) - count - places⟩

/-- Every digit of `mantissa * 2 ^ shift`. -/
def exact (mantissa shift : Nat) : Decimal :=
  ⟨mantissa * Nat.pow 2 shift * Nat.pow 5 1074, -1074⟩

/-- The shortest decimal that reads back as `mantissa * 2 ^ shift`. -/
def shortest (mantissa shift : Nat) : Decimal :=
  let scaled := mantissa * Nat.pow 2 shift * Nat.pow 10 places / Nat.pow 2 1074
  let length := (Nat.toDigits 10 scaled).length
  ((List.range 17).findSome? fun i => onGrid mantissa shift length (i + 1)).getD
    (exact mantissa shift)

/-- The digits without the zeros at their end. -/
def significant (digits : List Char) : List Char :=
  (digits.reverse.dropWhile (· = '0')).reverse

/-- The exponent mark of a text: its sign and at least two digits. -/
def exponentText (e : Int) : List Char :=
  let ds := Nat.toDigits 10 e.natAbs
  ['e', if e < 0 then '-' else '+'] ++ (if ds.length < 2 then '0' :: ds else ds)

/-- Lays out digits with the decimal point after the first `point` of them: in place when
`-4 < point ≤ 16`, with an exponent otherwise. -/
def layout (digits : List Char) (point : Int) : List Char :=
  if -4 < point ∧ point ≤ 16 then
    if point ≤ 0 then ['0', '.'] ++ List.replicate (-point).toNat '0' ++ digits
    else if digits.length ≤ point.toNat then
      digits ++ List.replicate (point.toNat - digits.length) '0' ++ ['.', '0']
    else digits.take point.toNat ++ ['.'] ++ digits.drop point.toNat
  else
    digits.take 1 ++ (if digits.length ≤ 1 then [] else '.' :: digits.drop 1) ++
      exponentText (point - 1)

/-- The text of a finite number without its sign. -/
def magnitudeText (mantissa shift : Nat) : List Char :=
  if mantissa = 0 then ['0', '.', '0']
  else
    let d  := shortest mantissa shift
    let ds := Nat.toDigits 10 d.digits
    layout (significant ds) (ds.length + d.exponent)

/-- The text of a number. -/
def chars : Binary64 → List Char
  | .finite s m k _ => (if s then ['-'] else []) ++ magnitudeText m k
  | .infinite s     => (if s then ['-'] else []) ++ ['i', 'n', 'f']
  | .nan            => ['n', 'a', 'n']

/-- The text of a number. -/
def text (x : Binary64) : String := String.ofList x.chars

end Binary64

end DocDirective
