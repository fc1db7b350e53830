/-!
# Text — Utf8

The text that bytes stand for.  Only the shortest form of a character is accepted, and no
surrogates; the first fault ends the reading.
-/

namespace DocDirective.Text

/-- Why bytes are no text. -/
inductive Utf8Reason
  | badStart
  | badContinuation
  | cutShort
  deriving DecidableEq, Repr

/-- The wording of a reason. -/
def Utf8Reason.message : Utf8Reason → String
  | .badStart        => "invalid start byte"
  | .badContinuation => "invalid continuation byte"
  | .cutShort        => "unexpected end of data"

/-- Bytes that are no text: the first of them, where it stands, how many there are and why. -/
structure Utf8Error where
  byte     : UInt8
  position : Nat
  count    : Nat
  reason   : Utf8Reason
  deriving DecidableEq, Repr

/-- The digit of a number below sixteen. -/
def byteDigit (n : Nat) : Char := if n < 10 then Char.ofNat (48 + n) else Char.ofNat (87 + n)

/-- A byte in base sixteen. -/
def byteText (b : UInt8) : String :=
  String.ofList ['0', 'x', byteDigit (b.toNat / 16), byteDigit (b.toNat % 16)]

/-- The wording of the error. -/
def Utf8Error.message (e : Utf8Error) : String :=
  let place := if e.count = 1 then s!"byte {byteText e.byte} in position {e.position}"
    else s!"bytes in position {e.position}-{e.position + e.count - 1}"
  s!"'utf-8' codec can't decode {place}: {e.reason.message}"

/-- A byte that goes on with a character. -/
def isContinuation (b : UInt8) : Bool := 0x80 ≤ b && b ≤ 0xBF

/-- How many bytes go on with a character, by its first byte. -/
def continuations? (b : UInt8) : Option Nat :=
  if b ≤ 0x7F then some 0
  else if 0xC2 ≤ b && b ≤ 0xDF then some 1
  else if 0xE0 ≤ b && b ≤ 0xEF then some 2
  else if 0xF0 ≤ b && b ≤ 0xF4 then some 3
  else none

/-- The second byte fits the first. -/
def secondFits (first second : UInt8) : Bool :=
  isContinuation second &&
    (if first = 0xE0 then 0xA0 ≤ second
    else if first = 0xED then second ≤ 0x9F
    else if first = 0xF0 then 0x90 ≤ second
    else if first = 0xF4 then second ≤ 0x8F
    else true)

/-- How many bytes behind the first one of a character belong to it. -/
def fitting (first : UInt8) (n : Nat) (rest : List UInt8) : Nat :=
  match rest.take n with
  | []          => 0
  | second :: r =>
    if secondFits first second then 1 + (r.takeWhile isContinuation).length else 0

/-- The character of its first byte and of those behind it. -/
def charOf (first : UInt8) (rest : List UInt8) : Char :=
  let lead := if rest.isEmpty then first.toNat
    else first.toNat % Nat.pow 2 (6 - rest.length)
  Char.ofNat (rest.foldl (fun n b => n * 64 + b.toNat % 64) lead)

/-- The characters that bytes stand for, of which `position` stand before them. -/
def decodeFrom (position : Nat) : List UInt8 → Except Utf8Error (List Char)
  | []        => .ok []
  | b :: rest =>
    match continuations? b with
    | none   => .error ⟨b, position, 1, .badStart⟩
    | some n =>
      let k := fitting b n rest
      if k = n then
        (decodeFrom (position + n + 1) (rest.drop n)).map (charOf b (rest.take n) :: ·)
      else if k = rest.length then .error ⟨b, position, k + 1, .cutShort⟩
      else .error ⟨b, position, k + 1, .badContinuation⟩
  termination_by bs => bs.length
  decreasing_by simp only [List.length_cons, List.length_drop]; omega

/-- The text that bytes stand for. -/
def decode (bytes : List UInt8) : Except Utf8Error String :=
  (decodeFrom 0 bytes).map String.ofList

/-- A text with every line end written as a line feed. -/
def unifyLines : List Char → List Char
  | []        => []
  | c :: rest =>
    if c = '\r' then
      if rest.head? = some '\n' then unifyLines rest else '\n' :: unifyLines rest
    else c :: unifyLines rest

end DocDirective.Text
