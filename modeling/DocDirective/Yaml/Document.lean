import DocDirective.Yaml.Node
import DocDirective.Yaml.Scalar

/-!
# Yaml — Document

The value of a YAML text.  Aliases are replaced by the nodes they name; then every node gives a
value: by its tag, or where it has none by its form.  Nodes are looked through level by level
beforehand, so of two faults the one that stands less deep is found first.
-/

namespace DocDirective.Yaml

namespace Node

/-- The nodes that anchors name so far. -/
abbrev Anchors := List (String × Node)

/-- An anchor that is defined for the first time. -/
def newAnchor (anchors : Anchors) (p : Properties) : Except Error Unit :=
  match p.anchor with
  | some a => if (anchors.lookup a).isSome then .error (.flaw .repeatedAnchor) else .ok ()
  | none   => .ok ()

/-- The anchors with a node under its own. -/
def define (anchors : Anchors) (p : Properties) (n : Node) : Anchors :=
  match p.anchor with
  | some a => (a, n) :: anchors
  | none   => anchors

mutual

/-- A node with the aliases in it replaced. -/
def expand (anchors : Anchors) : Node → Except Error (Node × Anchors)
  | .alias name      =>
    match anchors.lookup name with
    | some n => .ok (n, anchors)
    | none   => .error (.flaw .unknownAlias)
  | .scalar p pl t   => do
    newAnchor anchors p
    let n := Node.scalar p pl t
    return (n, define anchors p n)
  | .sequence p xs   => do
    newAnchor anchors p
    let (xs, anchors) ← expandItems anchors xs
    let n := Node.sequence p xs
    return (n, define anchors p n)
  | .mapping p es    => do
    newAnchor anchors p
    let (es, anchors) ← expandEntries anchors es
    let n := Node.mapping p es
    return (n, define anchors p n)

/-- Nodes with the aliases in them replaced. -/
def expandItems (anchors : Anchors) : List Node → Except Error (List Node × Anchors)
  | []      => .ok ([], anchors)
  | x :: xs => do
    let (x, anchors) ← expand anchors x
    let (xs, anchors) ← expandItems anchors xs
    return (x :: xs, anchors)

/-- Entries with the aliases in them replaced. -/
def expandEntries (anchors : Anchors) :
    List (Node × Node) → Except Error (List (Node × Node) × Anchors)
  | []           => .ok ([], anchors)
  | (k, v) :: es => do
    let (k, anchors) ← expand anchors k
    let (v, anchors) ← expand anchors v
    let (es, anchors) ← expandEntries anchors es
    return ((k, v) :: es, anchors)

end

/-- The types that tags name. -/
inductive Tag
  | unspecific
  | null
  | bool
  | int
  | float
  | text
  | sequence
  | mapping
  deriving DecidableEq

/-- The type that a tag names. -/
def tagOf (p : Properties) : Except Error Tag :=
  match p.tag with
  | none                   => .ok .unspecific
  | some (handle, suffix)  =>
    let full := if handle = "!!" then "tag:yaml.org,2002:" ++ suffix
      else if handle = "!" then "!" ++ suffix else suffix
    if handle ∉ ["", "!", "!!"] then .error (.flaw .badTag)
    else match full with
      | "!"                       => .ok .unspecific
      | "tag:yaml.org,2002:null"  => .ok .null
      | "tag:yaml.org,2002:bool"  => .ok .bool
      | "tag:yaml.org,2002:int"   => .ok .int
      | "tag:yaml.org,2002:float" => .ok .float
      | "tag:yaml.org,2002:str"   => .ok .text
      | "tag:yaml.org,2002:seq"   => .ok .sequence
      | "tag:yaml.org,2002:map"   => .ok .mapping
      | _                         => .error (.flaw .unknownTag)

/-- The value of a scalar. -/
def scalarValue (p : Properties) (plain : Bool) (s : String) : Except Error Value := do
  match ← tagOf p with
  | .unspecific =>
    if !plain && p.tag.isNone then return .text s
    else if s = "=" || s = "<<" then .error (.flaw .unknownTag)
    else plainValue s
  | .null       => return .null
  | .bool       =>
    if s ∈ trueWords then return .bool true
    else if s ∈ falseWords then return .bool false
    else .error (.flaw .badScalar)
  | .int        => match int? s.toList with
    | some n => n.map .int
    | none   => .error (.flaw .badScalar)
  | .float      => match float? s.toList, Numeral.looseBinary64? s with
    | some x, _      => return .float x
    | none,   some x => return .float x
    | none,   none   => .error (.flaw .badScalar)
  | .text       => return .text s
  | .sequence   => .error (.flaw .badScalar)
  | .mapping    => .error (.flaw .badScalar)

/-- A collection may have the tag of its own type only. -/
def checkTag (p : Properties) (own : Tag) : Except Error Unit := do
  let t ← tagOf p
  if t = .unspecific ∨ t = own then return () else .error (.flaw .badScalar)

/-- The key that merges the entries of its value. -/
def isMerge : Node → Bool
  | .scalar p plain s => plain && p.tag.isNone && s = "<<"
  | _                 => false

/-- Writes an entry; of two equal keys the first is kept, with the later value. -/
def assign (es : List (Value × Value)) (e : Value × Value) : List (Value × Value) :=
  match es with
  | []           => [e]
  | (k, v) :: es => if Value.same k e.1 then (k, e.2) :: es else (k, v) :: assign es e

/-- The entries that a merged value gives; of several mappings the first has the last word. -/
def merged : Value → Except Error (List (Value × Value))
  | .map es  => .ok es
  | .list vs => do
    let ess ← vs.mapM fun v => match v with
      | .map es => Except.ok es
      | _       => .error (.flaw .badMerge)
    return ess.reverse.flatten
  | _        => .error (.flaw .badMerge)

/-- A value that can be a key. -/
def keyValue : Value → Except Error Value
  | .list _ => .error (.flaw .badKey)
  | .map _  => .error (.flaw .badKey)
  | v       => .ok v

/-- The key that is an equals sign stands for itself. -/
def isEquals : Node → Bool
  | .scalar p plain s => plain && p.tag.isNone && s = "="
  | _                 => false

/-! ### The order of faults -/

mutual

/-- The entries of a mapping with those that are merged into it in front. -/
def flattened : Node → Except Error (List (Node × Node))
  | .mapping _ es => do
    let (inherited, own) ← flattenedEntries es
    return inherited ++ own
  | _             => .error (.flaw .badMerge)

/-- The entries of mappings, with those that are merged into them. -/
def flattenedItems : List Node → Except Error (List (List (Node × Node)))
  | []      => .ok []
  | x :: xs => do
    let es ← flattened x
    let ess ← flattenedItems xs
    return es :: ess

/-- The entries that are merged in, and the others. -/
def flattenedEntries :
    List (Node × Node) → Except Error (List (Node × Node) × List (Node × Node))
  | []           => .ok ([], [])
  | (k, v) :: es => do
    if isMerge k then
      let more ← match v with
        | .sequence _ xs => do
          let ess ← flattenedItems xs
          pure ess.reverse.flatten
        | v              => flattened v
      let (inherited, own) ← flattenedEntries es
      return (more ++ inherited, own)
    else
      let (inherited, own) ← flattenedEntries es
      return (inherited, (k, v) :: own)

end

/-- A collection. -/
def isCollection : Node → Bool
  | .sequence .. => true
  | .mapping ..  => true
  | _            => false

/-- The type of a collection, or that of its tag. -/
def collectionTag (p : Properties) (own : Tag) : Except Error Tag := do
  match ← tagOf p with
  | .unspecific => return own
  | .sequence   => return .sequence
  | .mapping    => return .mapping
  | _           => .error (.flaw .badScalar)

/-- Looks at a node, but not into a collection. -/
def inspect : Node → Except Error Unit
  | .alias _          => .error (.flaw .unknownAlias)
  | .scalar p plain s => (scalarValue p plain s).map fun _ => ()
  | .sequence p _     => (collectionTag p .sequence).map fun _ => ()
  | .mapping p _      => (collectionTag p .mapping).map fun _ => ()

/-- Looks at an entry: at the key, which cannot be a collection, and then at the value. -/
def inspectEntry (e : Node × Node) : Except Error Unit := do
  if !isEquals e.1 then inspect e.1
  if e.1.isCollection then .error (.flaw .badKey)
  inspect e.2

/-- Looks at the nodes in a collection; gives the collections among them. -/
def inspectInside : Node → Except Error (List Node)
  | .sequence p xs  => do
    if (← collectionTag p .sequence) ≠ .sequence then .error (.flaw .badScalar)
    let _ ← xs.mapM inspect
    return xs.filter isCollection
  | n@(.mapping p _) => do
    if (← collectionTag p .mapping) ≠ .mapping then .error (.flaw .badScalar)
    let es ← flattened n
    let _ ← es.mapM inspectEntry
    return (es.map (·.2)).filter isCollection
  | _               => return []

/-- Looks into collections, then into those inside them, for so many levels. -/
def inspectLevels : (levels : Nat) → List Node → Except Error Unit
  | 0,          _       => .ok ()
  | _,          []      => .ok ()
  | levels + 1, n :: ns => do
    let inside ← (n :: ns).mapM inspectInside
    inspectLevels levels inside.flatten

/-! ### Values -/

mutual

/-- The value of a node without aliases. -/
def value : Node → Except Error Value
  | .alias _          => .error (.flaw .unknownAlias)
  | .scalar p plain s => scalarValue p plain s
  | .sequence p xs    => do
    checkTag p .sequence
    let vs ← itemValues xs
    return .list vs
  | .mapping p es     => do
    checkTag p .mapping
    let (inherited, own) ← entryValues es
    return .map ((inherited ++ own).foldl assign [])

/-- The values of items. -/
def itemValues : List Node → Except Error (List Value)
  | []      => .ok []
  | x :: xs => do
    let v ← value x
    let vs ← itemValues xs
    return v :: vs

/-- The entries that are merged into a mapping, and its own. -/
def entryValues :
    List (Node × Node) → Except Error (List (Value × Value) × List (Value × Value))
  | []           => .ok ([], [])
  | (k, v) :: es => do
    if isMerge k then
      let vv ← value v
      let more ← merged vv
      let (inherited, own) ← entryValues es
      return (more ++ inherited, own)
    else
      let kv ← if isEquals k then .ok (.text "=") else value k
      let kv ← keyValue kv
      let vv ← value v
      let (inherited, own) ← entryValues es
      return (inherited, (kv, vv) :: own)

end

end Node

/-- The value of a text; a text with no document has the value null.  Every level of the document
has a token of its own. -/
def read (text : String) : Except Error Value := do
  let ts := Token.ofText text
  match ← Node.ofTokens ts with
  | none   => return .null
  | some n => do
    let (n, _) ← n.expand []
    n.inspect
    Node.inspectLevels ts.length [n]
    n.value

end DocDirective.Yaml
