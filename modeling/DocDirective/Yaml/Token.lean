import DocDirective.Yaml.Error

/-!
# Yaml — Token

The tokens of a YAML text.  Indentation becomes tokens of its own: a block collection starts where
an entry stands further in than what encloses it, and ends where a line stands further out.  A
scalar in front of a colon is seen to be a key only at the colon, so the key's token is then put
back before it; a place where a key may have begun is a `Candidate`.  Tokens are read as they are
needed: where the text cannot be read on, the tokens in front of that place still count, and
`Token.broken` ends them.
-/

namespace DocDirective.Yaml

/-- The tokens. -/
inductive Token
  | directive
  | documentStart
  | documentEnd
  | sequenceStart
  | mappingStart
  | blockEnd
  | flowSequenceStart
  | flowSequenceEnd
  | flowMappingStart
  | flowMappingEnd
  | entry
  | comma
  | key
  | value
  | alias  (name : String)
  | anchor (name : String)
  | tag    (handle suffix : String)
  | scalar (plain : Bool) (text : String)
  | broken (e : Error)
  deriving DecidableEq, Repr

/-! ### Characters -/

/-- A character that ends a line. -/
def isBreak (c : Char) : Bool :=
  c = '\n' || c = '\r' || c.toNat = 0x85 || c.toNat = 0x2028 || c.toNat = 0x2029

/-- A character that ends a word. -/
def isGap (c : Char) : Bool := c = ' ' || c = '\t' || isBreak c

/-- A text is at its end or at a character that ends a word. -/
def atGap (cs : List Char) : Bool := cs.head?.all isGap

/-- A text is at its end or at the end of a line. -/
def atBreak (cs : List Char) : Bool := cs.head?.all isBreak

/-- A character that may stand in a text at all. -/
def isAllowed (c : Char) : Bool :=
  c = '\t' || c = '\n' || c = '\r' || (0x20 ≤ c.toNat && c.toNat ≤ 0x7E) || c.toNat = 0x85 ||
    (0xA0 ≤ c.toNat && c.toNat ≤ 0xFFFD) || 0x10000 ≤ c.toNat

/-- A character of the name of an anchor. -/
def isNameChar (c : Char) : Bool := c.isAlphanum || c = '-' || c = '_'

/-- A character of a tag. -/
def isTagChar (c : Char) : Bool :=
  c.isAlphanum || "-;/?:@&=+$,_.!~*\x27()[]%".toList.contains c

/-- A character that plain scalars do not begin with. -/
def isIndicator (c : Char) : Bool :=
  "-?:,[]\x7b\x7d#&*!|>\x27\"%@\x60".toList.contains c

/-- A character that separates what stands in brackets. -/
def isFlowMark (c : Char) : Bool := ",[]\x7b\x7d".toList.contains c

/-! ### The lexer -/

/-- A place where a key may have begun: how many tokens stand before it, whether it has to be a
key, and where it is. -/
structure Candidate where
  number   : Nat
  required : Bool
  index    : Nat
  line     : Nat
  column   : Int

/-- What is left of the text, the position, the tokens so far with the latest first, and what the
next token depends on. -/
structure Lexer where
  rest        : List Char
  index       : Nat := 0
  line        : Nat := 0
  column      : Int := 0
  tokens      : List Token := []
  flow        : Nat := 0
  indent      : Int := -1
  indents     : List Int := []
  keysAllowed : Bool := true
  candidates  : List (Nat × Candidate) := []

/-- A step of the lexer. -/
abbrev Lexed := Except Error Lexer

namespace Lexer

/-- Ends the reading. -/
def fail {α : Type} (f : Flaw) : Except Error α := .error (.flaw f)

/-- Moves over one character. -/
def step (l : Lexer) : Lexer :=
  match l.rest with
  | []        => l
  | c :: rest =>
    if isBreak c && !(c = '\r' && rest.head? = some '\n') then
      { l with rest := rest, index := l.index + 1, line := l.line + 1, column := 0 }
    else { l with
      rest := rest, index := l.index + 1
      column := if c.toNat = 0xFEFF then l.column else l.column + 1 }

/-- Moves over some characters. -/
def advance (l : Lexer) : Nat → Lexer
  | 0     => l
  | n + 1 => l.step.advance n

/-- The characters in front that satisfy a condition, and the lexer behind them. -/
def span (l : Lexer) (p : Char → Bool) : List Char × Lexer :=
  (l.rest.takeWhile p, l.advance (l.rest.takeWhile p).length)

/-- Moves over characters that satisfy a condition. -/
def skip (l : Lexer) (p : Char → Bool) : Lexer := (l.span p).2

/-- Moves over a line end; what it stands for in a scalar. -/
def lineBreak (l : Lexer) : List Char × Lexer :=
  match l.rest with
  | '\r' :: '\n' :: _ => (['\n'], l.advance 2)
  | c :: _            =>
    if c.toNat = 0x2028 || c.toNat = 0x2029 then ([c], l.step)
    else if isBreak c then (['\n'], l.step)
    else ([], l)
  | []                => ([], l)

/-- Adds a token. -/
def emit (l : Lexer) (t : Token) : Lexer := { l with tokens := t :: l.tokens }

/-- Adds a token behind the first `number` ones. -/
def emitAt (l : Lexer) (number : Nat) (t : Token) : Lexer :=
  let later := l.tokens.length - number
  { l with tokens := l.tokens.take later ++ t :: l.tokens.drop later }

/-- A document separator stands here. -/
def atSeparator (l : Lexer) : Bool :=
  (l.rest.take 3 = ['-', '-', '-'] || l.rest.take 3 = ['.', '.', '.']) && atGap (l.rest.drop 3)

/-! ### Indentation and keys -/

/-- Closes the block collections that stand further in than a column. -/
def unwindTo (l : Lexer) (column : Int) : List Int → Lexer
  | []            => l
  | outer :: rest =>
    if column < l.indent then
      ({ l with indent := outer, indents := rest, tokens := .blockEnd :: l.tokens }).unwindTo column
        rest
    else l

/-- Closes the block collections that stand further in than a column, outside brackets. -/
def unwind (l : Lexer) (column : Int) : Lexer :=
  if l.flow = 0 then l.unwindTo column l.indents else l

/-- Goes further in, if a column stands there. -/
def indentTo (l : Lexer) (column : Int) : Bool × Lexer :=
  if l.indent < column then (true, { l with indents := l.indent :: l.indents, indent := column })
  else (false, l)

/-- A candidate can be a key no more: it is on another line or too far back. -/
def isStale (l : Lexer) (c : Candidate) : Bool := c.line ≠ l.line || 1024 < l.index - c.index

/-- Gives up the candidates that can be keys no more. -/
def dropStale (l : Lexer) : Lexed :=
  if l.candidates.any fun c => l.isStale c.2 && c.2.required then fail .missingColon
  else .ok { l with candidates := l.candidates.filter fun c => !l.isStale c.2 }

/-- Gives up the candidate of the present level. -/
def dropCandidate (l : Lexer) : Lexed :=
  match l.candidates.lookup l.flow with
  | some c =>
    if c.required then fail .missingColon
    else .ok { l with candidates := l.candidates.filter (·.1 ≠ l.flow) }
  | none   => .ok l

/-- Marks a place where a key may begin. -/
def saveCandidate (l : Lexer) : Lexed :=
  if l.keysAllowed then do
    let l ← l.dropCandidate
    let required := l.flow = 0 && l.indent = l.column
    let c : Candidate := ⟨l.tokens.length, required, l.index, l.line, l.column⟩
    return { l with candidates := (l.flow, c) :: l.candidates }
  else .ok l

/-! ### Scalars -/

/-- Moves to the next line that has something on it; the line ends passed by the way.  Spaces up to
`limit`, if there is one, belong to the indentation. -/
def breaks (skipped : Lexer → Lexer) : (fuel : Nat) → Lexer → List Char × Lexer
  | 0,        l => ([], l)
  | fuel + 1, l =>
    let l := skipped l
    if l.rest.head?.any isBreak then
      let (b, l) := l.lineBreak
      let (bs, l) := breaks skipped fuel l
      (b ++ bs, l)
    else ([], l)

/-- Moves over spaces up to a column. -/
def skipIndent (limit : Int) (l : Lexer) : Lexer :=
  let spaces := (l.rest.takeWhile (· = ' ')).length
  l.advance (min spaces (limit - l.column).toNat)

/-- The line ends that join two lines of a scalar: one becomes a space, and of several the first is
left out. -/
def joint (lineEnd bs : List Char) : List Char :=
  if lineEnd ≠ ['\n'] then lineEnd ++ bs else if bs.isEmpty then [' '] else bs

/-- The line ends in a quoted scalar up to its next character. -/
def quotedBreaks : (fuel : Nat) → Lexer → Except Error (List Char × Lexer)
  | 0,        l => .ok ([], l)
  | fuel + 1, l =>
    if l.atSeparator then fail .unclosedQuote
    else
      let l := l.skip fun c => c = ' ' || c = '\t'
      if l.rest.head?.any isBreak then do
        let (b, l) := l.lineBreak
        let (bs, l) ← quotedBreaks fuel l
        return (b ++ bs, l)
      else .ok ([], l)

/-- The character that a letter behind a backslash stands for. -/
def escape? (c : Char) : Option Char :=
  match c with
  | '0'    => some (Char.ofNat 0)
  | 'a'    => some (Char.ofNat 7)
  | 'b'    => some (Char.ofNat 8)
  | 't'    => some '\t'
  | '\t'   => some '\t'
  | 'n'    => some '\n'
  | 'v'    => some (Char.ofNat 11)
  | 'f'    => some (Char.ofNat 12)
  | 'r'    => some '\r'
  | 'e'    => some (Char.ofNat 27)
  | ' '    => some ' '
  | '\x22' => some '\x22'
  | '\\'   => some '\\'
  | '/'    => some '/'
  | 'N'    => some (Char.ofNat 0x85)
  | '_'    => some (Char.ofNat 0xA0)
  | 'L'    => some (Char.ofNat 0x2028)
  | 'P'    => some (Char.ofNat 0x2029)
  | _      => none

/-- How many digits of base sixteen follow a letter behind a backslash. -/
def escapeWidth? (c : Char) : Option Nat :=
  if c = 'x' then some 2 else if c = 'u' then some 4 else if c = 'U' then some 8 else none

/-- The value of a digit of base sixteen. -/
def hexValue? (c : Char) : Option Nat :=
  if c.isDigit then some (c.toNat - 48)
  else if 'a' ≤ c && c ≤ 'f' then some (c.toNat - 87)
  else if 'A' ≤ c && c ≤ 'F' then some (c.toNat - 55)
  else none

/-- The number that digits of base sixteen stand for. -/
def hexNumber? (cs : List Char) : Option Nat :=
  cs.foldl (fun n c => n.bind fun n => (hexValue? c).map (16 * n + ·)) (some 0)

/-- The first half of a pair that stands for one character. -/
def isHighHalf (code : Nat) : Bool := 0xD800 ≤ code && code < 0xDC00

/-- The second half of a pair that stands for one character. -/
def isLowHalf (code : Nat) : Bool := 0xDC00 ≤ code && code < 0xE000

/-- The character of a number; half a pair is none, and the character for what is unknown stands in
its place. -/
def character (code : Nat) : Except Error Char :=
  if isHighHalf code || isLowHalf code then .ok (Char.ofNat 0xFFFD)
  else if code < 0x110000 then .ok (Char.ofNat code)
  else .error (.misfit (if code < Nat.pow 2 31 then .noSuchCharacter else .hugeCharacter))

/-- The number that a second escape completes, where the first one gave half a pair, and how many
characters the second one has. -/
def completed (code : Nat) (rest : List Char) : Nat × Nat :=
  match rest with
  | '\\' :: 'u' :: digits =>
    match if isHighHalf code && 4 ≤ digits.length then hexNumber? (digits.take 4) else none with
    | some low =>
      if isLowHalf low then (0x10000 + (code - 0xD800) * 0x400 + (low - 0xDC00), 6) else (code, 0)
    | none     => (code, 0)
  | _                    => (code, 0)

/-- The rest of a quoted scalar behind a backslash, read by `goOn`. -/
def escaped (fuel : Nat) (l : Lexer)
    (goOn : List Char → Lexer → Except Error (List Char × Lexer)) :
    Except Error (List Char × Lexer) :=
  match l.rest with
  | []     => fail .badEscape
  | c :: _ =>
    match escape? c, escapeWidth? c with
    | some e, _      => goOn [e] l.step
    | none,   some n =>
      let digits := l.step.rest.take n
      match if digits.length = n then hexNumber? digits else none with
      | some code => do
        let (code, more) := completed code (l.step.rest.drop n)
        let c ← character code
        goOn [c] (l.step.advance (n + more))
      | none      => fail .badEscape
    | none,   none   =>
      if isBreak c then do
        let (bs, l) ← quotedBreaks fuel l.lineBreak.2
        goOn bs l
      else fail .badEscape

/-- The text of a quoted scalar from behind its opening quote to behind its closing one. -/
def quotedText (quote : Char) : (fuel : Nat) → Lexer → Except Error (List Char × Lexer)
  | 0,        _ => fail .unclosedQuote
  | fuel + 1, l =>
    let also (cs : List Char) (l : Lexer) : Except Error (List Char × Lexer) := do
      let (rest, l) ← quotedText quote fuel l
      return (cs ++ rest, l)
    match l.rest with
    | []        => fail .unclosedQuote
    | c :: rest =>
      if c = quote then
        if quote = '\x27' && rest.head? = some '\x27' then also ['\x27'] (l.advance 2)
        else .ok ([], l.step)
      else if c = '\\' && quote = '\x22' then escaped fuel l.step also
      else if c = ' ' || c = '\t' then
        let (blanks, next) := l.span fun c => c = ' ' || c = '\t'
        if next.rest.head?.any isBreak then also [] next else also blanks next
      else if isBreak c then do
        let (b, l) := l.lineBreak
        let (bs, l) ← quotedBreaks fuel l
        also (joint b bs) l
      else also [c] l.step

/-- The text of a plain scalar goes on with the first character. -/
def goesOn (flow : Nat) (cs : List Char) : Bool :=
  match cs with
  | []        => false
  | c :: rest =>
    !(isGap c || (c = ':' && (atGap rest || (flow ≠ 0 && rest.head?.any isFlowMark))) ||
      (flow ≠ 0 && (c = '?' || isFlowMark c)))

/-- How many characters of a line belong to a plain scalar. -/
def plainLength (flow : Nat) : List Char → Nat
  | []        => 0
  | c :: rest => if goesOn flow (c :: rest) then plainLength flow rest + 1 else 0

/-- The line ends and spaces between two lines of a plain scalar; none before a separator. -/
def plainBreaks : (fuel : Nat) → Lexer → Option (List Char) × Lexer
  | 0,        l => (none, l)
  | fuel + 1, l =>
    if l.atSeparator then (none, l)
    else
      let l := l.skip (· = ' ')
      if l.rest.head?.any isBreak then
        let (b, l) := l.lineBreak
        let (bs, l) := plainBreaks fuel l
        (bs.map (b ++ ·), l)
      else (some [], l)

/-- What stands between two words of a plain scalar: nothing where it ends. -/
def plainSpaces (fuel : Nat) (l : Lexer) : List Char × Lexer :=
  let (blanks, l) := l.span (· = ' ')
  if l.rest.head?.any isBreak then
    let (b, l) := l.lineBreak
    let (bs, l) := plainBreaks fuel { l with keysAllowed := true }
    match bs with
    | some bs => (joint b bs, l)
    | none    => ([], l)
  else (blanks, l)

/-- The text of a plain scalar; `between` stands before its next word. -/
def plainText (indent : Int) (between : List Char) :
    (fuel : Nat) → Lexer → List Char × Lexer
  | 0,        l => ([], l)
  | fuel + 1, l =>
    let n := plainLength l.flow l.rest
    if l.rest.head? = some '#' || n = 0 then ([], l)
    else
      let word := between ++ l.rest.take n
      let (spaces, l) := plainSpaces fuel { l.advance n with keysAllowed := false }
      if spaces.isEmpty || l.rest.head? = some '#' || (l.flow = 0 && l.column < indent) then
        (word, l)
      else
        let (text, l) := plainText indent spaces fuel l
        (word ++ text, l)

/-! ### Block scalars -/

/-- What becomes of the line ends at the end of a block scalar. -/
inductive Chomp
  | strip
  | clip
  | keep
  deriving DecidableEq

/-- The mark of what becomes of the line ends. -/
def chompOf? (c : Char) : Option Chomp :=
  if c = '+' then some .keep else if c = '-' then some .strip else none

/-- The header of a block scalar: its chomping, and its indentation where it is given. -/
def blockHeader (l : Lexer) : Except Error (Chomp × Option Nat × Lexer) := do
  let digit (l : Lexer) : Except Error (Option Nat × Lexer) :=
    match l.rest with
    | c :: _ =>
      if c = '0' then fail .badBlockHeader
      else if c.isDigit then .ok (some (c.toNat - 48), l.step) else .ok (none, l)
    | []     => .ok (none, l)
  let chomp (l : Lexer) : Option Chomp × Lexer :=
    match l.rest.head?.bind chompOf? with
    | some c => (some c, l.step)
    | none   => (none, l)
  let (first, l) := chomp l
  let (increment, l) ← digit l
  let (last, l) := if first.isNone && increment.isSome then chomp l else (none, l)
  if l.rest.head?.all fun c => c = ' ' || isBreak c then
    let l := l.skip (· = ' ')
    let l := if l.rest.head? = some '#' then l.skip (!isBreak ·) else l
    if atBreak l.rest then return ((first.or last).getD .clip, increment, l.lineBreak.2)
    else fail .badBlockHeader
  else fail .badBlockHeader

/-- The empty lines in front of a block scalar and the furthest column that they reach. -/
def leadingLines (deepest : Int) : (fuel : Nat) → Lexer → List Char × Int × Lexer
  | 0,        l => ([], deepest, l)
  | fuel + 1, l =>
    let l := l.skip (· = ' ')
    let deepest := max deepest l.column
    if l.rest.head?.any isBreak then
      let (b, l) := l.lineBreak
      let (bs, deepest, l) := leadingLines deepest fuel l
      (b ++ bs, deepest, l)
    else ([], deepest, l)

/-- The lines of a block scalar at a column, with `before` in front of the first one, then the line
ends behind the last. -/
def blockLines (folded : Bool) (indent : Int) (before : List Char) :
    (fuel : Nat) → Lexer → List Char × List Char × List Char × Lexer
  | 0,        l => ([], [], before, l)
  | fuel + 1, l =>
    if l.column = indent && !l.rest.isEmpty then
      let flush := !(l.rest.head?.any fun c => c = ' ' || c = '\t')
      let (line, l) := l.span (!isBreak ·)
      let (b, l) := l.lineBreak
      let (bs, l) := breaks (skipIndent indent) (l.rest.length + 1) l
      if l.column = indent && !l.rest.isEmpty then
        let flushNext := !(l.rest.head?.any fun c => c = ' ' || c = '\t')
        let joined := if folded && b = ['\n'] && flush && flushNext then
            (if bs.isEmpty then [' '] else []) ++ bs
          else b ++ bs
        let (text, tail, rest, l) := blockLines folded indent joined fuel l
        (before ++ line ++ text, tail, rest, l)
      else (before ++ line, b, bs, l)
    else ([], [], before, l)

/-- A block scalar from behind its mark. -/
def blockScalar (folded : Bool) (l : Lexer) : Except Error (List Char × Lexer) := do
  let (chomp, increment, l) ← l.blockHeader
  let least := max (l.indent + 1) 1
  let (before, indent, l) := match increment with
    | some n =>
      let indent := least + n - 1
      let (bs, l) := breaks (skipIndent indent) (l.rest.length + 1) l
      (bs, indent, l)
    | none   =>
      let (bs, deepest, l) := leadingLines 0 (l.rest.length + 1) l
      (bs, max least deepest, l)
  let (text, tail, rest, l) := blockLines folded indent before (l.rest.length + 1) l
  return (text ++ (if chomp = .strip then [] else tail) ++ (if chomp = .keep then rest else []), l)

/-! ### The next token -/

/-- Moves to the next token over spaces, comments and line ends. -/
def toNextToken : (fuel : Nat) → Lexer → Lexer
  | 0,        l => l
  | fuel + 1, l =>
    let l := l.skip (· = ' ')
    let l := if l.rest.head? = some '#' then l.skip (!isBreak ·) else l
    if l.rest.head?.any isBreak then
      let l := l.lineBreak.2
      toNextToken fuel (if l.flow = 0 then { l with keysAllowed := true } else l)
    else l

/-- A token that begins a node in brackets. -/
def openFlow (l : Lexer) (t : Token) : Lexed := do
  let l ← l.saveCandidate
  return { l with flow := l.flow + 1, keysAllowed := true }.step.emit t

/-- A token that ends a node in brackets. -/
def closeFlow (l : Lexer) (t : Token) : Lexed := do
  let l ← l.dropCandidate
  return { l with flow := l.flow - 1, keysAllowed := false }.step.emit t

/-- A token that stands for itself and may be followed by a key; outside brackets it opens a
collection where it stands further in. -/
def blockMark (l : Lexer) (opening mark : Token) (flaw : Flaw) (keysInFlow : Bool) : Lexed := do
  let l ← if l.flow = 0 then
      if l.keysAllowed then
        let (further, l) := l.indentTo l.column
        pure (if further then l.emit opening else l)
      else fail flaw
    else pure l
  let l ← { l with keysAllowed := l.flow = 0 || keysInFlow }.dropCandidate
  return l.step.emit mark

/-- A colon: behind a candidate, the candidate was a key. -/
def colon (l : Lexer) : Lexed :=
  match l.candidates.lookup l.flow with
  | some c =>
    let l := { l with candidates := l.candidates.filter (·.1 ≠ l.flow) }.emitAt c.number .key
    let (further, l) := if l.flow = 0 then l.indentTo c.column else (false, l)
    let l := if further then l.emitAt c.number .mappingStart else l
    .ok ({ l with keysAllowed := false }.step.emit .value)
  | none   => l.blockMark .mappingStart .value .valueNotAllowed false

/-- A document separator. -/
def separator (l : Lexer) (t : Token) : Lexed := do
  let l ← (l.unwind (-1)).dropCandidate
  return ({ l with keysAllowed := false }.advance 3).emit t

/-- A token whose text is a scalar, an anchor, an alias or a tag, where a key may begin. -/
def atom (l : Lexer) (read : Lexer → Except Error (Token × Lexer)) : Lexed := do
  let l ← l.saveCandidate
  let (t, l) ← read { l with keysAllowed := false }
  return l.emit t

/-- The name of an anchor or an alias behind its mark. -/
def name (make : String → Token) (l : Lexer) : Except Error (Token × Lexer) :=
  let (cs, l) := l.step.span isNameChar
  if cs.isEmpty then fail .badName
  else if l.rest.head?.all fun c => isGap c || "?:,]\x7d%@\x60".toList.contains c then
    .ok (make (String.ofList cs), l)
  else fail .badName

/-- A tag: its handle and the rest of it. -/
def tag (l : Lexer) : Except Error (Token × Lexer) := do
  let uri (handle : String) (l : Lexer) : Except Error (Token × Lexer) :=
    let (cs, l) := l.span isTagChar
    if cs.isEmpty then fail .badTag else .ok (.tag handle (String.ofList cs), l)
  let (t, l) ← match l.step.rest with
    | '<' :: _ => do
      let (t, l) ← uri "" (l.advance 2)
      if l.rest.head? = some '>' then pure (t, l.step) else fail .badTag
    | cs       =>
      if atGap cs then pure (.tag "" "!", l.step)
      else if (cs.takeWhile fun c => !(c = ' ' || isBreak c)).contains '!' then
        let (cs, next) := l.step.span isNameChar
        if next.rest.head? = some '!' then uri (String.ofList ('!' :: cs ++ ['!'])) next.step
        else fail .badTag
      else uri "!" l.step
  if l.rest.head?.all fun c => c = ' ' || isBreak c then return (t, l) else fail .badTag

/-- A quoted scalar. -/
def quoted (quote : Char) (l : Lexer) : Except Error (Token × Lexer) := do
  let (cs, l) ← quotedText quote (l.rest.length + 1) l.step
  return (.scalar false (String.ofList cs), l)

/-- A plain scalar. -/
def plain (l : Lexer) : Except Error (Token × Lexer) :=
  let (cs, l) := plainText (l.indent + 1) [] (l.rest.length + 1) l
  .ok (.scalar true (String.ofList cs), l)

/-- Reads the next token, which begins with a character. -/
def nextToken (l : Lexer) (c : Char) (rest : List Char) : Lexed :=
  let spaced := atGap rest
  if c = '%' && l.column = 0 then do
    let l ← (l.unwind (-1)).dropCandidate
    return ({ l with keysAllowed := false }.skip (!isBreak ·)).emit .directive
  else if l.column = 0 && l.atSeparator then
    l.separator (if c = '-' then .documentStart else .documentEnd)
  else if c = '[' then l.openFlow .flowSequenceStart
  else if c = '\x7b' then l.openFlow .flowMappingStart
  else if c = ']' then l.closeFlow .flowSequenceEnd
  else if c = '\x7d' then l.closeFlow .flowMappingEnd
  else if c = ',' then do
    let l ← { l with keysAllowed := true }.dropCandidate
    return l.step.emit .comma
  else if c = '-' && spaced then l.blockMark .sequenceStart .entry .entryNotAllowed true
  else if c = '?' && (l.flow ≠ 0 || spaced) then
    l.blockMark .mappingStart .key .keyNotAllowed false
  else if c = ':' && (l.flow ≠ 0 || spaced) then l.colon
  else if c = '*' then l.atom (name .alias)
  else if c = '&' then l.atom (name .anchor)
  else if c = '!' then l.atom tag
  else if (c = '|' || c = '>') && l.flow = 0 then do
    let l ← { l with keysAllowed := true }.dropCandidate
    let (cs, l) ← blockScalar (c = '>') l.step
    return l.emit (.scalar false (String.ofList cs))
  else if c = '\x27' || c = '\x22' then l.atom (quoted c)
  else if !(isGap c || isIndicator c) ||
      (!spaced && (c = '-' || (l.flow = 0 && (c = '?' || c = ':')))) then do
    let l ← l.saveCandidate
    let (t, l) ← plain { l with keysAllowed := false }
    return l.emit t
  else fail .strayCharacter

/-- Moves to the next token and reads it; at the end of the text, what is open is closed. -/
def advanceToken (l : Lexer) : Lexed := do
  let l ← (toNextToken (l.rest.length + 1) l).dropStale
  match l.rest with
  | []        => (l.unwind (-1)).dropCandidate
  | c :: rest => (l.unwind l.column).nextToken c rest

/-- How many tokens can be used before the next one is read: those in front of the first place
where a key may still have begun, since the next token decides about it. -/
def settled (l : Lexer) : Nat :=
  ((l.candidates.filter fun c => !l.isStale c.2).map (·.2.number)).foldl min l.tokens.length

/-- The tokens so far, in order. -/
def ordered (l : Lexer) : List Token := l.tokens.reverse

/-- Reads the tokens that are left. -/
def run : (fuel : Nat) → Lexer → List Token
  | 0,        l => l.ordered
  | fuel + 1, l =>
    match l.advanceToken with
    | .error e => l.ordered.take l.settled ++ [.broken e]
    | .ok next => if l.rest.isEmpty then next.ordered else run fuel next

end Lexer

/-- The tokens of a text. -/
def Token.ofText (text : String) : List Token :=
  let cs := text.toList
  if cs.all isAllowed then
    let start : Lexer := { rest := cs }
    (if cs.head?.any (·.toNat = 0xFEFF) then start.step else start).run (2 * cs.length + 3)
  else [.broken (.flaw .unprintable)]

end DocDirective.Yaml
