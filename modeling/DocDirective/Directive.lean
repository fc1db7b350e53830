import DocDirective.Text.Blank
import DocDirective.Text.Identifier

/-!
# Directive

A doc comment carries directives `!Name argument text`.  The text of the arguments runs to the end
of the line or to `*/`, whichever comes first, and is taken without the blanks around it.  An
exclamation mark with no identifier behind it is part of the prose.
-/

namespace DocDirective

/-- A directive as it stands in a comment; `offset` counts the characters before its mark. -/
structure Directive where
  name      : String
  arguments : String
  offset    : Nat := 0
  deriving DecidableEq, Repr

namespace Directive

/-- A blank between the name and the arguments, which stay on the line. -/
def isGap (c : Char) : Bool := Text.isBlank c && c != '\n' && c != '\r'

/-- The arguments in front of a text and what follows them: a line end, `*/` or nothing. -/
def spanArguments : List Char → List Char × List Char
  | []        => ([], [])
  | c :: rest =>
    if c = '\n' || c = '\r' || (c = '*' && rest.head? = some '/') then ([], c :: rest)
    else (c :: (spanArguments rest).1, (spanArguments rest).2)

theorem spanArguments_append (cs : List Char) :
    (spanArguments cs).1 ++ (spanArguments cs).2 = cs := by
  fun_induction spanArguments cs <;> simp_all

theorem length_spanArguments_le (cs : List Char) : (spanArguments cs).2.length ≤ cs.length := by
  have h := congrArg List.length (spanArguments_append cs)
  rw [List.length_append] at h
  omega

theorem length_of_spanIdentifier {cs name rest : List Char}
    (h : Text.spanIdentifier cs = some (name, rest)) : rest.length < cs.length := by
  cases cs with
  | nil => simp [Text.spanIdentifier] at h
  | cons c cs =>
    simp only [Text.spanIdentifier] at h
    split at h
    · obtain ⟨-, rfl⟩ := h
      exact Nat.lt_succ_of_le (List.dropWhile_sublist _).length_le
    · simp at h

/-- The directives in a text, of which `offset` characters stand before it. -/
def scanFrom (offset : Nat) : List Char → List Directive
  | []        => []
  | c :: rest =>
    if c = '!' then
      match h : Text.spanIdentifier rest with
      | none               => scanFrom (offset + 1) rest
      | some (name, after) =>
        have := length_of_spanIdentifier h
        have := (List.dropWhile_sublist (l := after) isGap).length_le
        have := length_spanArguments_le (after.dropWhile isGap)
        let gap  := after.takeWhile isGap
        let body := spanArguments (after.dropWhile isGap)
        ⟨String.ofList name, String.ofList (Text.trimEnd body.1), offset⟩ ::
          scanFrom (offset + 1 + name.length + gap.length + body.1.length) body.2
    else scanFrom (offset + 1) rest
  termination_by cs => cs.length

/-- The directives in a comment, in order. -/
def scan (comment : String) : List Directive := scanFrom 0 comment.toList

end Directive

end DocDirective
