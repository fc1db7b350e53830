import DocDirective.Text.CaseTable

/-!
# Text — Casing

Full case maps: one character may become several (`ß` is `SS` in upper case), and a capital sigma
becomes a final one when it ends a word, that is when the nearest character before it that is not
passed over is cased and the nearest one after it is not.
-/

namespace DocDirective.Text

/-- The image of a character under a list of exceptions and the runs behind it. -/
def image (many : List (Nat × List Nat)) (runs : List Run) (c : Char) : List Char :=
  match many.lookup c.toNat with
  | some ns => ns.map Char.ofNat
  | none    => [((runs.findSome? (·.imageOf? c.toNat)).map Char.ofNat).getD c]

/-- The lower case of a character on its own. -/
def lowerChar (c : Char) : List Char := image lowerMany lowerRuns c

/-- The upper case of a character. -/
def upperChar (c : Char) : List Char := image upperMany upperRuns c

/-- The title case of a character: its upper case, with some exceptions. -/
def titleChar (c : Char) : List Char :=
  if (titleMany.lookup c.toNat).isSome || (titleRuns.findSome? (·.imageOf? c.toNat)).isSome then
    image titleMany titleRuns c
  else upperChar c

/-- A character that gives a sigma next to it the middle of a word. -/
def isCased (c : Char) : Bool := inRanges casedRanges c.toNat

/-- A character passed over when the context of a sigma is looked at. -/
def isIgnorable (c : Char) : Bool := inRanges ignorableRanges c.toNat

/-- The nearest character that is not passed over is cased. -/
def startsCased (cs : List Char) : Bool :=
  match cs.dropWhile isIgnorable with
  | []     => false
  | c :: _ => isCased c

/-- The capital sigma, whose lower case depends on its neighbours. -/
def capitalSigma : Char := Char.ofNat 0x3A3

/-- Lower case of the rest of a text; `afterCased` says what stands before it. -/
def lowerFrom (afterCased : Bool) : List Char → List Char
  | []        => []
  | c :: rest =>
    (if c = capitalSigma then
      [Char.ofNat (if afterCased && !startsCased rest then 0x3C2 else 0x3C3)]
    else lowerChar c) ++
    lowerFrom (if isIgnorable c then afterCased else isCased c) rest

/-- Lower case. -/
def lower (cs : List Char) : List Char := lowerFrom false cs

/-- Upper case. -/
def upper (cs : List Char) : List Char := cs.flatMap upperChar

/-- The first character in title case, the others in lower case. -/
def capitalize : List Char → List Char
  | []        => []
  | c :: rest => titleChar c ++ lowerFrom (!isIgnorable c && isCased c) rest

/-- A text in lower case. -/
def lowered (s : String) : String := String.ofList (lower s.toList)

/-- A text in upper case. -/
def uppered (s : String) : String := String.ofList (upper s.toList)

/-- A text with its first character in title case and the others in lower case. -/
def capitalized (s : String) : String := String.ofList (capitalize s.toList)

/-- The first character in upper case, the others as they are. -/
def upperFirst (s : String) : String :=
  String.ofList (upper (s.toList.take 1) ++ s.toList.drop 1)

/-- The first character in lower case, the others as they are. -/
def lowerFirst (s : String) : String :=
  String.ofList (lower (s.toList.take 1) ++ s.toList.drop 1)

end DocDirective.Text
