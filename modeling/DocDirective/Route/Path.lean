import DocDirective.Directive

/-!
# Route — Path

Paths of routes in canonical form: one slash in front of every piece, none at the end, and
parameters written in braces.  A route that starts with a slash ignores the path of its class.
-/

namespace DocDirective.Route

/-- Writes every `/$name` as the name in braces. -/
def braceParams : List Char → List Char
  | []        => []
  | c :: rest =>
    if c = '/' ∧ rest.head? = some '$' then
      match h : Text.spanIdentifier rest.tail with
      | some (name, after) =>
        have := Directive.length_of_spanIdentifier h
        '/' :: '\x7b' :: name ++ '\x7d' :: braceParams after
      | none => c :: braceParams rest
    else c :: braceParams rest
  termination_by cs => cs.length
  decreasing_by all_goals simp_all only [List.length_cons, List.length_tail]; omega

/-- Writes one slash for every row of slashes. -/
def collapse : List Char → List Char
  | []        => []
  | c :: rest => if c = '/' && rest.head? = some '/' then collapse rest else c :: collapse rest

/-- A text without the slash at its end, unless it is all of the text. -/
def dropFinalSlash (cs : List Char) : List Char :=
  if 1 < cs.length && cs.getLast? = some '/' then cs.dropLast else cs

/-- A text with a slash in front. -/
def withSlash (cs : List Char) : List Char :=
  if cs.head? = some '/' then cs else '/' :: cs

/-- The canonical form of a path. -/
def normalize (path : String) : String :=
  if path.isEmpty then "/"
  else String.ofList
    (dropFinalSlash (collapse (braceParams (withSlash (Text.trim path.toList)))))

/-- The path of a route below the path of its class. -/
def join (base route : String) : String :=
  if route.toList.head? = some '/' || base.isEmpty then normalize route
  else normalize (normalize base ++ "/" ++ route)

end DocDirective.Route
