import DocDirective.CommandLine.Words

/-!
# Command line — Request

What a command line asks for: to show the directives of a comment, to expand the classes of a
manifest, or to list the kinds of directives.
-/

namespace DocDirective.CommandLine

/-- The commands. -/
inductive Command
  | parse       (text : String)
  | expand      (manifest config : String)
  | annotations (config : String)
  deriving DecidableEq, Repr

/-- A command and whether detail is wanted. -/
structure Request where
  verbose : Bool
  command : Command
  deriving DecidableEq, Repr

/-- What the words of a command have given so far; `strange` where one of them makes no sense. -/
structure Given where
  verbose : Bool := false
  config  : String := "."
  words   : List String := []
  strange : Bool := false

/-- The switches that take no text, by their letters. -/
def switchOfLetter? (c : Char) : Option Switch :=
  commonSwitches.lookup (String.ofList ['-', c])

/-- Follows a switch that takes no text and those whose letters are attached to it.  Every letter
has to be that of a switch, even where help is asked for. -/
def flags (s : Switch) (letters : List Char) (g : Given) : Except Refusal Given :=
  match letters.mapM switchOfLetter? with
  | none    => .error .usage
  | some ss =>
    if (s :: ss).contains .config then .error .usage
    else if (s :: ss).contains .help then .error .help
    else .ok { g with verbose := true }

/-- A switch that takes no text, with what is attached to it. -/
def flagSwitch (s : Switch) (attached : Attached) (g : Given) : Except Refusal Given :=
  match attached with
  | .nothing   => flags s [] g
  | .equals _  => .error .usage
  | .letters t => flags s t.toList g

/-- Goes through the words of a command.  Two dashes make every word behind them plain; with a plain
word in front of them they stand directly behind it, and nothing follows them. -/
def collect (switches : List (String × Switch)) (g : Given) : List String → Except Refusal Given
  | []           => .ok g
  | word :: rest =>
    if word = "--" then
      .ok { g with
        words   := g.words ++ rest
        strange := g.strange || !g.words.isEmpty || rest.isEmpty }
    else do
      match ← classify switches word with
      | .plain t              =>
        let g := { g with words := g.words ++ [t] }
        if rest = ["--"] then return g else collect switches g rest
      | .unknown              => collect switches { g with strange := true } rest
      | .switch .config (.equals t) => collect switches { g with config := t } rest
      | .switch .config _           =>
        match rest with
        | next :: rest =>
          if next = "--" then .error .usage
          else match ← classify switches next with
            | .plain t => collect switches { g with config := t } rest
            | _        => .error .usage
        | []           => .error .usage
      | .switch s attached          => do
        let g ← flagSwitch s attached g
        collect switches g rest

/-- The command of a name with its words. -/
def commandOf (name : String) (rest : List String) : Except Refusal Request := do
  if name = "parse" then
    let g ← collect commonSwitches {} rest
    match g.strange, g.words with
    | false, [text] => return ⟨g.verbose, .parse text⟩
    | _,     _      => .error .usage
  else if name = "expand" then
    let g ← collect settingsSwitches {} rest
    match g.strange, g.words with
    | false, [path] => return ⟨g.verbose, .expand path g.config⟩
    | _,     _      => .error .usage
  else if name = "annotations" then
    let g ← collect settingsSwitches {} rest
    match g.strange, g.words with
    | false, []     => return ⟨g.verbose, .annotations g.config⟩
    | _,     _      => .error .usage
  else .error .usage

/-- Goes through the words in front of the command and those of the command. -/
def requestFrom (verbose strange : Bool) : List String → Except Refusal Request
  | []           => .error .usage
  | word :: rest =>
    if word = "--" then .error .usage
    else do
      match ← classify commonSwitches word with
      | .plain name => do
        let r ← commandOf name rest
        if strange then .error .usage else return { r with verbose := verbose || r.verbose }
      | .unknown              => requestFrom verbose true rest
      | .switch s attached    => do
        let g ← flagSwitch s attached {}
        requestFrom (verbose || g.verbose) strange rest

/-- What the words of a command line ask for.  A word that may be short for several switches makes
no sense wherever it stands in front of two dashes. -/
def Request.ofWords (words : List String) : Except Refusal Request := do
  let _ ← (words.takeWhile (· ≠ "--")).mapM (classify commonSwitches)
  requestFrom false false words

end DocDirective.CommandLine
