import DocDirective.Number.Numeral

/-!
# Yaml — Error

Why a YAML text has no value.
-/

namespace DocDirective.Yaml

/-- What is wrong with the form of a text. -/
inductive Flaw
  | unprintable
  | strayCharacter
  | missingColon
  | entryNotAllowed
  | keyNotAllowed
  | valueNotAllowed
  | badName
  | badTag
  | badBlockHeader
  | unclosedQuote
  | badEscape
  | unexpectedToken
  | secondDocument
  | unknownAlias
  | repeatedAnchor
  | unknownTag
  | badKey
  | badMerge
  | badScalar
  deriving DecidableEq, Repr

/-- The wording of a flaw. -/
def Flaw.message : Flaw → String
  | .unprintable     => "a special character is not allowed"
  | .strayCharacter  => "a character cannot start any token"
  | .missingColon    => "a key is not followed by a colon"
  | .entryNotAllowed => "a sequence entry is not allowed here"
  | .keyNotAllowed   => "a mapping key is not allowed here"
  | .valueNotAllowed => "a mapping value is not allowed here"
  | .badName         => "the name of an anchor or an alias is malformed"
  | .badTag          => "a tag is malformed"
  | .badBlockHeader  => "the header of a block scalar is malformed"
  | .unclosedQuote   => "a quoted scalar is not closed"
  | .badEscape       => "an escape is not known"
  | .unexpectedToken => "the document ends or goes on unexpectedly"
  | .secondDocument  => "a single document was expected"
  | .unknownAlias    => "an alias names no anchor"
  | .repeatedAnchor  => "an anchor is defined twice"
  | .unknownTag      => "a tag names no type"
  | .badKey          => "a collection cannot be a key"
  | .badMerge        => "only mappings can be merged"
  | .badScalar       => "a scalar does not fit its type"

/-- Why a text of the right form has no value: a number with too many digits or with none, or an
escape for a number that no character has, which may be too large for a machine word as well. -/
inductive Misfit
  | overlong  (o : Overlong)
  | noDigits  (base : Nat)
  | noSuchCharacter
  | hugeCharacter
  deriving DecidableEq, Repr

/-- The wording of a misfit. -/
def Misfit.message : Misfit → String
  | .overlong o      => o.message
  | .noDigits b      => s!"invalid literal for int() with base {b}: \x27\x27"
  | .noSuchCharacter => "chr() arg not in range(0x110000)"
  | .hugeCharacter   => "Python int too large to convert to C int"

/-- Why a text has no value: its form, or something in it that fits no value. -/
inductive Error
  | flaw   (f : Flaw)
  | misfit (m : Misfit)
  deriving DecidableEq, Repr

/-- The wording of an error. -/
def Error.message : Error → String
  | .flaw f   => f.message
  | .misfit m => m.message

end DocDirective.Yaml
