import DocDirective.Arguments.Literal
import DocDirective.Number.Numeral
import DocDirective.Text.Blank

/-!
# Arguments — Token

The tokens of an argument text: four marks, quoted literals and words.  The masked text is cut at
its marks; each run between two marks is blank, one placeholder, or a word.
-/

namespace DocDirective.Arguments

/-- The punctuation of argument texts. -/
inductive Mark
  | opening
  | closing
  | comma
  | colon
  deriving DecidableEq, Repr

/-- The character of a mark. -/
def Mark.char : Mark → Char
  | .opening => '('
  | .closing => ')'
  | .comma   => ','
  | .colon   => ':'

/-- The mark that a character is. -/
def Mark.ofChar? (c : Char) : Option Mark :=
  if c = '(' then some .opening
  else if c = ')' then some .closing
  else if c = ',' then some .comma
  else if c = ':' then some .colon
  else none

theorem Mark.ofChar?_char (m : Mark) : Mark.ofChar? m.char = some m := by
  cases m <;> rfl

/-- A token of an argument text. -/
inductive Token
  | mark    (m : Mark)
  | literal (content : String)
  | word    (text : String)
  deriving DecidableEq, Repr

/-- What is wrong with an argument text. -/
inductive Problem
  | runTogether
  | unterminated
  | unexpected (found : Option Token)
  | expected   (wanted : Mark) (found : Option Token)
  | nestedTooDeep
  | keyedInList
  deriving DecidableEq, Repr

/-- A token in a message. -/
def Token.describe : Token → String
  | .mark m    => s!"'{m.char}'"
  | .literal _ => "a quoted string"
  | .word s    => s!"'{s}'"

/-- The next token in a message, or the end. -/
def describeNext : Option Token → String
  | some t => t.describe
  | none   => "end of arguments"

/-- The wording of a problem. -/
def Problem.message : Problem → String
  | .runTogether   => "quoted string run together with other text"
  | .unterminated  => "unterminated quoted string"
  | .unexpected t  => s!"unexpected {describeNext t}"
  | .expected m t  => s!"expected '{m.char}' but found {describeNext t}"
  | .nestedTooDeep => "lists may only be nested one level deep"
  | .keyedInList   => "keyed values are only allowed at the top level"

/-- Why an argument text has no parameters: a problem with its form, a placeholder written out in
it that no literal answers to, or a number with too many digits. -/
inductive Failure
  | problem (p : Problem)
  | noSuchLiteral
  | overlong (o : Overlong)
  deriving DecidableEq, Repr

/-- The first mark of a text, after the blanks in front, is right there. -/
def markFollows (cs : List Char) : Bool :=
  match cs.dropWhile Text.isBlank with
  | []     => false
  | c :: _ => (Mark.ofChar? c).isSome

/-- A text without the blanks on either side of its marks; `afterMark` says that a mark stands
right before it. -/
def tighten (afterMark : Bool) : List Char → List Char
  | []        => []
  | c :: rest =>
    if Text.isBlank c && (afterMark || markFollows rest) then tighten afterMark rest
    else c :: tighten (Mark.ofChar? c).isSome rest

/-- The run before the first mark, and every mark with the run behind it. -/
def cut : List Char → List Char × List (Mark × List Char)
  | []        => ([], [])
  | c :: rest =>
    match Mark.ofChar? c with
    | some m => ([], (m, (cut rest).1) :: (cut rest).2)
    | none   => (c :: (cut rest).1, (cut rest).2)

/-- The digits of a text that is one placeholder. -/
def placeholderDigits? : List Char → Option (List Nat)
  | []        => none
  | c :: rest =>
    if c = nul then
      match Numeral.spanDigits rest with
      | (d :: ds, [e]) => if e = nul then some (d :: ds) else none
      | _              => none
    else none

/-- The literal that a placeholder's digits name. -/
def literalAt (literals : List String) (digits : List Nat) : Except Failure String :=
  if Overlong.limit < digits.length then .error (.overlong (.reading digits.length))
  else match literals[Numeral.ofDigits digits]? with
    | some s => .ok s
    | none   => .error .noSuchLiteral

/-- The token of a run, if it is not blank. -/
def Token.ofRun? (literals : List String) (run : List Char) : Except Failure (Option Token) :=
  let cs := Text.trim run
  if cs.isEmpty then .ok none
  else if cs.contains nul then
    match placeholderDigits? cs with
    | some ds => (literalAt literals ds).map fun s => some (.literal s)
    | none    => .error (.problem .runTogether)
  else if cs.any isQuote then .error (.problem .unterminated)
  else .ok (some (.word (String.ofList cs)))

/-- The tokens of marks and the runs behind them. -/
def Token.ofRuns (literals : List String) :
    List (Mark × List Char) → Except Failure (List Token)
  | []               => .ok []
  | (m, run) :: rest => do
    let t ← ofRun? literals run
    let ts ← ofRuns literals rest
    return .mark m :: (t.toList ++ ts)

/-- The tokens of a masked text. -/
def Token.ofMasked (m : Masked) : Except Failure (List Token) := do
  let runs := cut (tighten false m.text)
  let t ← ofRun? m.literals runs.1
  let ts ← ofRuns m.literals runs.2
  return t.toList ++ ts

/-- The tokens of an argument text, which stands in parentheses of its own. -/
def Token.ofText (text : String) : Except Failure (List Token) :=
  Token.ofMasked (mask ('(' :: text.toList ++ [')']))

end DocDirective.Arguments
