import DocDirective.Keyed
import DocDirective.Text.Casing
import DocDirective.Value.Basic

/-!
# Parameters

The evaluated arguments of a directive: values in order, and values under lower-case keys.
-/

namespace DocDirective

/-- Ordered values and keyed values. -/
structure Parameters where
  positional : List Value
  keyed      : Keyed Value
  deriving Inhabited

namespace Parameters

/-- No parameters. -/
def empty : Parameters := ⟨[], .empty⟩

/-- Appends a value without a key. -/
def add (p : Parameters) (value : Value) : Parameters :=
  { p with positional := p.positional ++ [value] }

/-- Writes a value under a key in lower case; a key that is there keeps its place. -/
def set (p : Parameters) (key : String) (value : Value) : Parameters :=
  { p with keyed := p.keyed.insert (Text.lowered key) value }

/-- The value under a key in any case. -/
def get? (p : Parameters) (key : String) : Option Value := p.keyed.get? (Text.lowered key)

/-- A key in any case is there. -/
def has (p : Parameters) (key : String) : Bool := (p.get? key).isSome

/-- Keyed values, then the values without a key. -/
def values (p : Parameters) : List Value := p.keyed.values ++ p.positional

/-- How many values there are. -/
def size (p : Parameters) : Nat := p.positional.length + p.keyed.size

end Parameters

end DocDirective
