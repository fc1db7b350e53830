import DocDirective.Text.Quoted

/-!
# Service — Address

The path that the address of a request names.  An address may begin with a scheme and a host; one
without them is taken below the root.  The query and the fragment behind the path do not count, dots
are followed, and escaped characters are read, also where their own escapes were escaped.
-/

namespace DocDirective.Service

/-- Why an address names no path. -/
inductive AddressError
  | tooLong
  | control (c : Char) (index : Nat)
  | doubleSlash
  | colon
  deriving DecidableEq, Repr

/-- The wording of the failure. -/
def AddressError.message : AddressError → String
  | .tooLong     => "URL too long"
  | .control c i =>
    s!"Invalid non-printable ASCII character in URL, {Text.quoted (String.singleton c)} " ++
      s!"at position {i}."
  | .doubleSlash => "Relative URLs cannot have a path starting with '//'"
  | .colon       => "Relative URLs cannot have a path starting with ':'"

namespace Address

/-- The most characters of an address. -/
def longest : Nat := 65536

/-- A character that no address holds. -/
def isControl (c : Char) : Bool := c.toNat < 0x20 || c.toNat = 0x7F

/-- The first control character of a text and its index. -/
def control? (cs : List Char) : Option (Char × Nat) :=
  (cs.find? isControl).map fun c => (c, (cs.takeWhile (!isControl ·)).length)

/-- A character of a scheme. -/
def isSchemeChar (c : Char) : Bool := c.isAlphanum || c = '+' || c = '.' || c = '-'

/-- A scheme in front of an address, perhaps an empty one, and what follows its colon. -/
def splitScheme (cs : List Char) : List Char × List Char :=
  let scheme := cs.takeWhile isSchemeChar
  match cs.dropWhile isSchemeChar with
  | ':' :: rest => if scheme.head?.all Char.isAlpha then (scheme, rest) else ([], cs)
  | _           => ([], cs)

/-- A host behind two slashes, perhaps an empty one, and what follows it. -/
def splitHost (cs : List Char) : List Char × List Char :=
  match cs with
  | '/' :: '/' :: rest => (rest.takeWhile (· ≠ '/'), rest.dropWhile (· ≠ '/'))
  | cs                 => ([], cs)

/-- The segments of a path with its dots followed; the root stays. -/
def followDots (segments : List String) : List String :=
  segments.foldl (fun done s =>
    if s = "." then done
    else if s = ".." then (if done = [""] then done else done.dropLast)
    else done ++ [s]) []

/-- A path with its dots followed. -/
def normalize (path : String) : String := "/".intercalate (followDots (path.splitOn "/"))

/-- The value of a digit of base sixteen. -/
def hexValue? (c : Char) : Option Nat :=
  if c.isDigit then some (c.toNat - 48)
  else if 'a' ≤ c && c ≤ 'f' then some (c.toNat - 87)
  else if 'A' ≤ c && c ≤ 'F' then some (c.toNat - 55)
  else none

/-- A text with the escapes of its ASCII characters read. -/
def unescape : List Char → List Char
  | '%' :: a :: b :: rest =>
    match hexValue? a, hexValue? b with
    | some m, some n =>
      if m < 8 then Char.ofNat (16 * m + n) :: unescape rest
      else '%' :: a :: b :: unescape rest
    | _,      _      => '%' :: unescape (a :: b :: rest)
  | c :: rest             => c :: unescape rest
  | []                    => []
termination_by cs => cs.length

/-- A path without the slashes in front of it. -/
def withoutRoot (path : List Char) : List Char := path.dropWhile (· = '/')

/-- The path that an address names. -/
def path (address : String) : Except AddressError String := do
  let cs := address.toList
  if longest < cs.length then throw .tooLong
  if let some (c, i) := control? cs then throw (.control c i)
  let cs := (cs.takeWhile (· ≠ '#')).takeWhile (· ≠ '?')
  let (scheme, rest) := splitScheme cs
  let (host, path)   := splitHost rest
  if scheme.isEmpty && host.isEmpty then
    if path.take 2 = ['/', '/'] then throw .doubleSlash
    if path.head? = some ':' then throw .colon
  let below := if scheme.isEmpty || host.isEmpty then '/' :: withoutRoot path else path
  let named := normalize (String.ofList below)
  return String.ofList (unescape (unescape named.toList))

end Address

end DocDirective.Service
