/-!
# Number — Binary64

Binary floating-point numbers of 64 bits as exact data.  A finite number is `mantissa * 2 ^ shift`
units of `2 ^ -1074`, the smallest positive one; the pair is canonical, so equal data means the
same number and the same sign of zero.
-/

namespace DocDirective

/-- The pairs that stand for a finite number, one per number. -/
def Binary64.Canonical (mantissa shift : Nat) : Prop :=
  mantissa < Nat.pow 2 53 ∧ shift ≤ 2045 ∧ (Nat.pow 2 52 ≤ mantissa ∨ shift = 0)

instance (m k : Nat) : Decidable (Binary64.Canonical m k) :=
  inferInstanceAs (Decidable (_ ∧ _))

/-- A binary floating-point number of 64 bits. -/
inductive Binary64
  | finite (negative : Bool) (mantissa shift : Nat)
      (canonical : Binary64.Canonical mantissa shift)
  | infinite (negative : Bool)
  | nan
  deriving DecidableEq

namespace Binary64

/-- A mantissa and a shift, or infinity where they are out of range. -/
def pack (negative : Bool) (mantissa shift : Nat) : Binary64 :=
  if h : Canonical mantissa shift then .finite negative mantissa shift h else .infinite negative

/-- The nearest whole number to a quotient; a half goes to the even neighbour. -/
def roundDiv (n d : Nat) : Nat :=
  if 2 * (n % d) < d then n / d
  else if d < 2 * (n % d) then n / d + 1
  else n / d + n / d % 2

/-- The number nearest to `num / den`, a half going to the even mantissa. -/
def nearest (negative : Bool) (num den : Nat) : Binary64 :=
  let shift    := (num * Nat.pow 2 1074 / den).log2 - 52
  let mantissa := roundDiv (num * Nat.pow 2 1074) (den * Nat.pow 2 shift)
  if mantissa = Nat.pow 2 53 then pack negative (Nat.pow 2 52) (shift + 1)
  else pack negative mantissa shift

/-- The number nearest to `digits * 10 ^ exponent`.  Exponents that settle the answer on their own
are dealt with first, so that no power grows with the text of the exponent. -/
def ofDecimal (negative : Bool) (digits : Nat) (exponent : Int) : Binary64 :=
  if digits = 0 then nearest negative 0 1
  else if 400 < exponent then .infinite negative
  else if exponent < -(digits.log2 + 400) then nearest negative 0 1
  else if 0 ≤ exponent then nearest negative (digits * Nat.pow 10 exponent.toNat) 1
  else nearest negative digits (Nat.pow 10 (-exponent).toNat)

/-- Neither infinite nor undefined. -/
def isFinite : Binary64 → Bool
  | .finite ..  => true
  | .infinite _ => false
  | .nan        => false

/-- A zero of either sign. -/
def isZero : Binary64 → Bool
  | .finite _ m _ _ => m = 0
  | .infinite _     => false
  | .nan            => false

/-- Numerical equality: the zeros are equal, and an undefined number equals nothing. -/
def numEq : Binary64 → Binary64 → Bool
  | .finite s m k _, .finite s' m' k' _ => m = m' && k = k' && (s = s' || m = 0)
  | .infinite s,     .infinite s'       => s = s'
  | _,               _                  => false

/-- Numerical equality with a whole number. -/
def eqInt : Binary64 → Int → Bool
  | .finite s m k _, n =>
    (n.natAbs * Nat.pow 2 1074 = m * Nat.pow 2 k) && (m = 0 || s = decide (n < 0))
  | .infinite _,     _ => false
  | .nan,            _ => false

/-- The whole number that a finite number is, if it is one. -/
def toInt? : Binary64 → Option Int
  | .finite s m k _ =>
    if m * Nat.pow 2 k % Nat.pow 2 1074 = 0 then
      let n : Int := (m * Nat.pow 2 k / Nat.pow 2 1074 : Nat)
      some (if s then -n else n)
    else none
  | .infinite _ => none
  | .nan        => none

end Binary64

end DocDirective
