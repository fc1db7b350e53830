import DocDirective.Kind.Basic
import DocDirective.Route.Path

/-!
# Kind — Routing

`!Route` adds a route to the class of a method; `!RoutesPrefix` sets the path that the relative
routes of a class start with.
-/

namespace DocDirective.Kind

/-- The methods that a route answers to. -/
def httpMethods : List String := ["GET", "POST", "PUT", "DELETE", "PATCH", "HEAD", "OPTIONS"]

/-- A route has a method and a path. -/
def lookAtRoute (s : Subject) : Complaints :=
  s.withParameters fun p =>
    let n := p.positional.length
    if n ≠ 2 then
      [.ok s!"{s.kind} requires an HTTP method and a path, got {n} unkeyed values."]
    else if (p.positional[1]?.map Value.isList).getD false then
      [.ok "The route path must be a single value."]
    else []

/-- The first two values as texts, or the reason why they are none. -/
def firstTwoTexts (vs : List Value) : Except Fault (String × String) :=
  match vs with
  | a :: b :: _ => do
    let a ← Fault.ofUnfit a.asText
    let b ← Fault.ofUnfit b.asText
    return (a, b)
  | _           => .error .outOfRange

/-- The text that a slot holds. -/
def slotText (b : Binding) (name : String) : Option String :=
  match b.slot name with
  | .text s => some s
  | _       => none

/-- Adds the route. -/
def expandRoute (b : Binding) (d : Descriptor) : Descriptor × Option Fault :=
  match firstTwoTexts b.values with
  | .error f    => (d, some f)
  | .ok (m, p)  =>
    (d.addRoute ⟨Text.uppered m, Route.join d.routesPrefix p, b.target.name,
      slotText b "route_name"⟩, none)

/-- Adds a route to a method: `!Route GET, users/$id, name: users.show`. -/
def route : Kind where
  name   := "RouteAnnotation"
  serial := 0
  mask   := some ⟨ElementKind.ofMethod.bit⟩
  usage  := "!Route (" ++ "|".intercalate httpMethods ++ "), route/path[, name: route.name]"
  fields := .ofList [("name", { slot := "route_name", convert := .text })]
  checks := [
    .rule (.acceptedKeys ["name"]),
    .rule (.acceptedIndexedValues 0 (httpMethods.map .text) (some .upper)),
    .own lookAtRoute]
  expand := expandRoute

/-- Changes a descriptor by the text of the only value. -/
def expandText (change : String → Descriptor → Descriptor) (b : Binding) (d : Descriptor) :
    Descriptor × Option Fault :=
  match b.values with
  | []     => (d, some .outOfRange)
  | v :: _ =>
    match v.asText with
    | .ok s    => (change s d, none)
    | .error u => (d, some (.unfit u))

/-- Sets the path that the routes of a class start with: `!RoutesPrefix users/`. -/
def routesPrefix : Kind where
  name   := "RoutesPrefixAnnotation"
  serial := 0
  mask   := some ⟨ElementKind.ofClass.bit⟩
  usage  := "!RoutesPrefix prefix/of/routes/"
  fields := .empty
  checks := [.rule .acceptsNoKeyedValues, .rule (.exactCount 1)]
  expand := expandText fun s d => { d with routesPrefix := Route.normalize s }

end DocDirective.Kind
