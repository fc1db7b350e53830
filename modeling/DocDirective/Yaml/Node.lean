import DocDirective.Yaml.Token

/-!
# Yaml — Node

The tree of a document, read from its tokens.  A node that is left out is an empty scalar.  What is
wrong is found in the order of the tokens: an alias that names nothing stops the reading where it
stands, and so does the place where the text itself cannot be read on.  The fuel of the reading
bounds how many productions are entered; it is counted from the tokens, each of which ends a few of
them at most.
-/

namespace DocDirective.Yaml

/-- What stands in front of a node: its anchor and its tag. -/
structure Properties where
  anchor : Option String := none
  tag    : Option (String × String) := none
  deriving DecidableEq, Repr

/-- A node of a document. -/
inductive Node
  | alias    (name : String)
  | scalar   (props : Properties) (plain : Bool) (text : String)
  | sequence (props : Properties) (items : List Node)
  | mapping  (props : Properties) (entries : List (Node × Node))
  deriving Inhabited

namespace Node

/-- A node that is left out. -/
def empty : Node := .scalar {} true ""

/-- Ends the reading in front of some tokens. -/
def unexpected {α : Type} : List Token → Except Error α
  | .broken e :: _ => .error e
  | _              => .error (.flaw .unexpectedToken)

/-- Tokens up to the first alias that names no anchor in front of it, or the first anchor that is
there already. -/
def soundNames (anchors : List String) : List Token → List Token
  | []           => []
  | .alias n :: ts =>
    if anchors.contains n then .alias n :: soundNames anchors ts
    else [.broken (.flaw .unknownAlias)]
  | .anchor n :: ts =>
    if anchors.contains n then [.broken (.flaw .repeatedAnchor)]
    else .anchor n :: soundNames (n :: anchors) ts
  | t :: ts      => t :: soundNames anchors ts

/-- The anchor and the tag in front of a node, in either order. -/
def properties : List Token → Properties × List Token
  | .anchor a :: .tag h s :: ts => (⟨some a, some (h, s)⟩, ts)
  | .tag h s :: .anchor a :: ts => (⟨some a, some (h, s)⟩, ts)
  | .anchor a :: ts             => (⟨some a, none⟩, ts)
  | .tag h s :: ts              => (⟨none, some (h, s)⟩, ts)
  | ts                          => ({}, ts)

/-- Where a node stands: in brackets, in a block, or where a sequence may stand no further in than
the key it belongs to. -/
inductive Place
  | inFlow
  | inBlock
  | afterKey
  deriving DecidableEq

/-- The tokens start with one of some tokens, or are at their end. -/
def startsWith (stops : List Token) (ts : List Token) : Bool := ts.head?.all stops.contains

/-- A node that is left out behind its properties. -/
def readEmpty (props : Properties) (ts : List Token) : Except Error (Node × List Token) :=
  if props = {} then unexpected ts else .ok (.scalar props true "", ts)

/-- The tokens behind the comma that every item but the first has in front. -/
def separated (first : Bool) (ts : List Token) : Except Error (List Token) :=
  if first then .ok ts
  else match ts with
    | .comma :: ts => .ok ts
    | ts           => unexpected ts

mutual

/-- A node. -/
def read (place : Place) : (fuel : Nat) → List Token → Except Error (Node × List Token)
  | 0,        ts => unexpected ts
  | fuel + 1, ts =>
    match ts with
    | .alias n :: ts => .ok (.alias n, ts)
    | ts             =>
      let (props, ts) := properties ts
      match ts with
      | .entry :: _             =>
        if place = .afterKey then do
          let (xs, ts) ← readEntries fuel ts
          return (.sequence props xs, ts)
        else readEmpty props ts
      | .scalar plain text :: ts => .ok (.scalar props plain text, ts)
      | .flowSequenceStart :: ts => do
        let (xs, ts) ← readFlowItems true fuel ts
        return (.sequence props xs, ts)
      | .flowMappingStart :: ts  => do
        let (es, ts) ← readFlowEntries true fuel ts
        return (.mapping props es, ts)
      | .sequenceStart :: rest   =>
        if place = .inFlow then readEmpty props ts
        else do
          let (xs, ts) ← readEntries fuel rest
          match ts with
          | .blockEnd :: ts => return (.sequence props xs, ts)
          | ts              => unexpected ts
      | .mappingStart :: rest    =>
        if place = .inFlow then readEmpty props ts
        else do
          let (es, ts) ← readBlockEntries fuel rest
          return (.mapping props es, ts)
      | ts                      => readEmpty props ts

/-- A node, or an empty one in front of some tokens. -/
def readUnless (stops : List Token) (place : Place) :
    (fuel : Nat) → List Token → Except Error (Node × List Token)
  | 0,        ts => unexpected ts
  | fuel + 1, ts => if startsWith stops ts then .ok (.empty, ts) else read place fuel ts

/-- The items of a block sequence. -/
def readEntries : (fuel : Nat) → List Token → Except Error (List Node × List Token)
  | 0,        ts => unexpected ts
  | fuel + 1, ts =>
    match ts with
    | .entry :: ts => do
      let (x, ts) ← readUnless [.entry, .key, .value, .blockEnd] .inBlock fuel ts
      let (xs, ts) ← readEntries fuel ts
      return (x :: xs, ts)
    | ts           => .ok ([], ts)

/-- The entries of a block mapping and its end. -/
def readBlockEntries :
    (fuel : Nat) → List Token → Except Error (List (Node × Node) × List Token)
  | 0,        ts => unexpected ts
  | fuel + 1, ts =>
    match ts with
    | .blockEnd :: ts => .ok ([], ts)
    | .key :: ts      => do
      let (k, ts) ← readUnless [.key, .value, .blockEnd] .afterKey fuel ts
      let (v, ts) ← readBlockValue fuel ts
      let (es, ts) ← readBlockEntries fuel ts
      return ((k, v) :: es, ts)
    | ts              => unexpected ts

/-- The value of an entry of a block mapping. -/
def readBlockValue : (fuel : Nat) → List Token → Except Error (Node × List Token)
  | 0,        ts => unexpected ts
  | fuel + 1, ts =>
    match ts with
    | .value :: ts => readUnless [.key, .value, .blockEnd] .afterKey fuel ts
    | ts           => .ok (.empty, ts)

/-- A key in brackets and its value. -/
def readPair (close : Token) :
    (fuel : Nat) → List Token → Except Error ((Node × Node) × List Token)
  | 0,        ts => unexpected ts
  | fuel + 1, ts => do
    let (k, ts) ← readUnless [.value, .comma, close] .inFlow fuel ts
    match ts with
    | .value :: ts => do
      let (v, ts) ← readUnless [.comma, close] .inFlow fuel ts
      return ((k, v), ts)
    | ts           => return ((k, .empty), ts)

/-- The items of a flow sequence and its end; a comma stands between two of them. -/
def readFlowItems (first : Bool) :
    (fuel : Nat) → List Token → Except Error (List Node × List Token)
  | 0,        ts => unexpected ts
  | fuel + 1, ts =>
    match ts with
    | .flowSequenceEnd :: ts => .ok ([], ts)
    | ts                     => do
      let ts ← separated first ts
      match ts with
      | .flowSequenceEnd :: ts => return ([], ts)
      | .key :: ts             => do
        let (e, ts) ← readPair .flowSequenceEnd fuel ts
        let (xs, ts) ← readFlowItems false fuel ts
        return (.mapping {} [e] :: xs, ts)
      | ts                     => do
        let (x, ts) ← read .inFlow fuel ts
        let (xs, ts) ← readFlowItems false fuel ts
        return (x :: xs, ts)

/-- The entries of a flow mapping and its end; a comma stands between two of them. -/
def readFlowEntries (first : Bool) :
    (fuel : Nat) → List Token → Except Error (List (Node × Node) × List Token)
  | 0,        ts => unexpected ts
  | fuel + 1, ts =>
    match ts with
    | .flowMappingEnd :: ts => .ok ([], ts)
    | ts                    => do
      let ts ← separated first ts
      match ts with
      | .flowMappingEnd :: ts => return ([], ts)
      | .key :: ts            => do
        let (e, ts) ← readPair .flowMappingEnd fuel ts
        let (es, ts) ← readFlowEntries false fuel ts
        return (e :: es, ts)
      | ts                    => do
        let (k, ts) ← read .inFlow fuel ts
        let (es, ts) ← readFlowEntries false fuel ts
        return ((k, .empty) :: es, ts)

end

/-- A whole text holds one document at most. -/
def ofTokens (ts : List Token) : Except Error (Option Node) := do
  let fuel := 8 * (ts.length + 1)
  let ts := soundNames [] ts
  let finish (n : Node) (ts : List Token) : Except Error (Option Node) :=
    match ts.dropWhile (· = .documentEnd) with
    | []             => .ok (some n)
    | .broken e :: _ => .error e
    | _              => .error (.flaw .secondDocument)
  match ts with
  | []      => return none
  | t :: _  =>
    let explicit := t = .directive || t = .documentStart
    let ts ← if explicit then
        match ts.dropWhile (· = .directive) with
        | .documentStart :: ts => .ok ts
        | ts                   => unexpected ts
      else .ok ts
    if explicit && startsWith [.directive, .documentStart, .documentEnd] ts then finish .empty ts
    else do
      let (n, ts) ← read .inBlock fuel ts
      finish n ts

end Node

end DocDirective.Yaml
