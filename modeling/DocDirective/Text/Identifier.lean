/-!
# Text — Identifier

ASCII identifiers: a letter or an underscore, then letters, digits and underscores.
-/

namespace DocDirective.Text

/-- A character that may begin an identifier. -/
def isIdentStart (c : Char) : Bool := c.isAlpha || c = '_'

/-- A character that may follow inside an identifier. -/
def isIdentPart (c : Char) : Bool := isIdentStart c || c.isDigit

/-- A whole text is an identifier. -/
def isIdentifier : List Char → Bool
  | []        => false
  | c :: rest => isIdentStart c && rest.all isIdentPart

/-- The longest identifier in front and what follows it. -/
def spanIdentifier : List Char → Option (List Char × List Char)
  | []        => none
  | c :: rest =>
    if isIdentStart c then some (c :: rest.takeWhile isIdentPart, rest.dropWhile isIdentPart)
    else none

end DocDirective.Text
