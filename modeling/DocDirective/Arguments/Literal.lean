/-!
# Arguments — Literal

Quoted literals are lifted out of the argument text before anything else looks at it.  A literal
closes on its line at the first quote of its own kind that no backslash precedes; a quote with no
such partner is an ordinary character here.  In the masked text a placeholder stands for each
literal: its number between two NUL characters.
-/

namespace DocDirective.Arguments

/-- The character on both sides of a placeholder's number. -/
def nul : Char := Char.ofNat 0

/-- Either quote. -/
def isQuote (c : Char) : Bool := c = '\x27' || c = '\x22'

/-- The content of a literal and what follows its closing quote; `escaped` says that a backslash
stands right before the text. -/
def spanLiteral (quote : Char) (escaped : Bool) : List Char → Option (List Char × List Char)
  | []        => none
  | c :: rest =>
    if c = quote && !escaped then some ([], rest)
    else if c = '\n' then none
    else (spanLiteral quote (c = '\\') rest).map fun r => (c :: r.1, r.2)

theorem length_of_spanLiteral {quote : Char} {escaped : Bool} {cs content rest : List Char}
    (h : spanLiteral quote escaped cs = some (content, rest)) : rest.length < cs.length := by
  induction cs generalizing escaped content with
  | nil => simp [spanLiteral] at h
  | cons c cs ih =>
    simp only [spanLiteral] at h
    split at h
    · simp only [Option.some.injEq, Prod.mk.injEq] at h
      obtain ⟨-, rfl⟩ := h
      exact Nat.lt_succ_self _
    · split at h
      · simp at h
      · obtain ⟨r, hr, he⟩ := Option.map_eq_some_iff.1 h
        simp only [Prod.mk.injEq] at he
        obtain ⟨-, rfl⟩ := he
        exact Nat.lt_succ_of_lt (ih hr)

/-- The content of a literal with its escaped quotes undone. -/
def unescape (quote : Char) : List Char → List Char
  | []        => []
  | c :: rest =>
    if c = '\\' && rest.head? = some quote then unescape quote rest else c :: unescape quote rest

/-- What stands for the literal of a number. -/
def placeholder (n : Nat) : List Char := nul :: Nat.toDigits 10 n ++ [nul]

/-- A text without its literals, and the literals in order. -/
structure Masked where
  text     : List Char
  literals : List String

/-- Lifts the literals out of a text; the first of them gets the number `n`. -/
def maskFrom (n : Nat) : List Char → Masked
  | []        => ⟨[], []⟩
  | c :: rest =>
    if isQuote c then
      match h : spanLiteral c false rest with
      | some (content, after) =>
        have := length_of_spanLiteral h
        let m := maskFrom (n + 1) after
        ⟨placeholder n ++ m.text, String.ofList (unescape c content) :: m.literals⟩
      | none =>
        let m := maskFrom n rest
        ⟨c :: m.text, m.literals⟩
    else
      let m := maskFrom n rest
      ⟨c :: m.text, m.literals⟩
  termination_by cs => cs.length

/-- Lifts the literals out of a text. -/
def mask (cs : List Char) : Masked := maskFrom 0 cs

end DocDirective.Arguments
