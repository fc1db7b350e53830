import DocDirective.Text.Digit

/-!
# Command line — Words

The words of a command line.  Switches may stand before and behind the command and may be
shortened as long as they stay unambiguous; two dashes end them.  Switches of one letter may be
joined in one word, with or without an equals sign behind the first.  A word with a space in it and
a negative number are no switches, whatever they start with.
-/

namespace DocDirective.CommandLine

/-- The switches. -/
inductive Switch
  | help
  | verbose
  | config
  deriving DecidableEq, Repr

/-- The switches that every command has, by their names. -/
def commonSwitches : List (String × Switch) :=
  [("-h", .help), ("--help", .help), ("-v", .verbose), ("--verbose", .verbose)]

/-- The switches of a command that works with settings. -/
def settingsSwitches : List (String × Switch) := commonSwitches ++ [("--config", .config)]

/-- Why there is nothing to run: the words make no sense, or help was asked for. -/
inductive Refusal
  | usage
  | help
  deriving DecidableEq, Repr

/-- What is attached to a switch: nothing, the text behind the equals sign of a long switch, or what
stands behind a switch of one letter. -/
inductive Attached
  | nothing
  | equals  (text : String)
  | letters (text : String)
  deriving DecidableEq, Repr

/-- A word: a plain one, a switch with what is attached to it, or one that looks like a switch and
is none. -/
inductive Word
  | plain   (text : String)
  | switch  (s : Switch) (attached : Attached)
  | unknown
  deriving DecidableEq, Repr

/-- A text in front of its first equals sign and the text behind it. -/
def splitEquals (cs : List Char) : Option (List Char × List Char) :=
  match cs.dropWhile (· ≠ '=') with
  | []        => none
  | _ :: rest => some (cs.takeWhile (· ≠ '='), rest)

/-- A minus sign and digits, perhaps with a point before the last of them. -/
def isNegativeNumber (cs : List Char) : Bool :=
  match cs with
  | '-' :: rest =>
    let rest := if rest.getLast? = some '\n' then rest.dropLast else rest
    let whole := rest.takeWhile Text.isDigit
    match rest.dropWhile Text.isDigit with
    | []             => !whole.isEmpty
    | '.' :: decimals => !decimals.isEmpty && decimals.all Text.isDigit
    | _              => false
  | _           => false

/-- The switches that a word may be short for. -/
def readings (switches : List (String × Switch)) (cs : List Char) : List Word :=
  match cs with
  | '-' :: '-' :: _ =>
    let (front, attached) : List Char × Attached := match splitEquals cs with
      | some (a, b) => (a, .equals (String.ofList b))
      | none        => (cs, .nothing)
    (switches.filter fun s => front.isPrefixOf s.1.toList).map fun s => .switch s.2 attached
  | _ =>
    switches.filterMap fun s =>
      if s.1.toList = cs.take 2 then some (.switch s.2 (.letters (String.ofList (cs.drop 2))))
      else if cs.isPrefixOf s.1.toList then some (.switch s.2 .nothing)
      else none

/-- A switch with a text behind an equals sign.  Behind a single letter the sign is passed over, if
there is a text. -/
def withText (front : List Char) (s : Switch) (text : List Char) : Word :=
  .switch s (if front.length = 2 && !text.isEmpty then .letters (String.ofList text)
    else .equals (String.ofList text))

/-- What a word is. -/
def classify (switches : List (String × Switch)) (word : String) : Except Refusal Word :=
  let cs := word.toList
  if cs.head? ≠ some '-' || cs.length = 1 then .ok (.plain word)
  else match switches.lookup word with
    | some s => .ok (.switch s .nothing)
    | none   =>
      let exact := (splitEquals cs).bind fun (a, b) =>
        (switches.lookup (String.ofList a)).map fun s => withText a s b
      match exact, readings switches cs with
      | some w, _   => .ok w
      | none,   [w] => .ok w
      | none,   []  =>
        if isNegativeNumber cs || cs.contains ' ' then .ok (.plain word) else .ok .unknown
      | none,   _   => .error .usage

end DocDirective.CommandLine
