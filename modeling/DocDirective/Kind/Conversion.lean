import DocDirective.Text.Blank
import DocDirective.Text.Casing
import DocDirective.Value.Display

/-!
# Kind — Conversion

How a value is read as a text, a truth value, a whole number or a list, and how it is folded to one
letter case before it is compared.
-/

namespace DocDirective

/-- Why a value does not fit a conversion. -/
inductive Unfit
  | notSingle
  | notTruth
  | notInteger
  | overlong (o : Overlong)
  | other    (message : String)
  deriving DecidableEq, Repr

/-- The wording of the misfit, as the end of a sentence about the value. -/
def Unfit.message : Unfit → String
  | .notSingle  => "must be a single value, not a list"
  | .notTruth   => "must be true or false"
  | .notInteger => "must be an integer"
  | .overlong o => o.message
  | .other m    => m

namespace Value

/-- The text of a single value. -/
def asText : Value → Except Unfit String
  | .list _ => .error .notSingle
  | .bool b => .ok (if b then "true" else "false")
  | v       => match v.plain with
    | .ok s    => .ok s
    | .error o => .error (.overlong o)

/-- A truth value, also given as one, zero or a word. -/
def asTruth : Value → Except Unfit Bool
  | .bool b => .ok b
  | .int n  => if n = 0 then .ok false else if n = 1 then .ok true else .error .notTruth
  | .text s =>
    let word := Text.lowered (Text.trimmed s)
    if word ∈ ["true", "yes", "on"] then .ok true
    else if word ∈ ["false", "no", "off"] then .ok false
    else .error .notTruth
  | _       => .error .notTruth

/-- A whole number, also given as a text. -/
def asInteger : Value → Except Unfit Int
  | .int n  => .ok n
  | .text s => match Numeral.looseInt? s with
    | some n => .ok n
    | none   => .error .notInteger
  | _       => .error .notInteger

/-- A list; any other value stands for the list of itself. -/
def asList : Value → List Value
  | .list xs => xs
  | v        => [v]

end Value

/-- The letter case that a text is folded to before it is compared. -/
inductive Case
  | lower
  | upper
  deriving DecidableEq, Repr

/-- Folds a text; other values stay as they are. -/
def Case.fold : Case → Value → Value
  | .lower, .text s => .text (Text.lowered s)
  | .upper, .text s => .text (Text.uppered s)
  | _,      v       => v

/-- Folds a value where a case is given. -/
def foldBy (case? : Option Case) (v : Value) : Value :=
  match case? with
  | some c => c.fold v
  | none   => v

end DocDirective
