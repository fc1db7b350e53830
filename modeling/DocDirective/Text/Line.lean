/-!
# Text — Line

Line numbers of positions in a text.  A position counts characters; a negative one counts from the
end, and one outside the text stands for the nearest end.
-/

namespace DocDirective.Text

/-- How many characters stand before a position in a text of `length` characters. -/
def charsBefore (length : Nat) (position : Int) : Nat :=
  if position < 0 then (position + length).toNat else min position.toNat length

/-- The number, from one, of the line that a position lies on. -/
def lineOf (text : String) (position : Int) : Nat :=
  (text.toList.take (charsBefore text.toList.length position)).count '\n' + 1

end DocDirective.Text
