import DocDirective.Fault

/-!
# Kind — Converter

How a keyed value becomes the value of a slot.  A conversion may turn the value down, with what it
says against it; it may also break down, with a fault that says nothing of the value.
-/

namespace DocDirective

/-- A conversion of keyed values: the value that a slot gets, or the fault that it ends in. -/
structure Converter where
  apply : Value → Except Fault Value

namespace Converter

/-- The text of a single value. -/
def text : Converter := ⟨fun v => Fault.ofUnfit (v.asText.map .text)⟩

/-- A truth value. -/
def truth : Converter := ⟨fun v => Fault.ofUnfit (v.asTruth.map .bool)⟩

/-- A whole number. -/
def integer : Converter := ⟨fun v => Fault.ofUnfit (v.asInteger.map .int)⟩

/-- A list. -/
def list : Converter := ⟨fun v => .ok (.list v.asList)⟩

/-- The value as it is. -/
def any : Converter := ⟨fun v => .ok v⟩

end Converter

end DocDirective
