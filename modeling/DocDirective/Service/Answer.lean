import DocDirective.Report.Record
import DocDirective.Service.Address
import DocDirective.Service.Schema

/-!
# Service — Answer

Answers to requests: whether the service is up, the directives of a text, and the descriptor of a
class.  What is wrong with a request is answered as its detail; only a fault that no answer exists
for is passed on.
-/

namespace DocDirective.Service

/-- A request; the body is absent where nothing is sent. -/
structure Request where
  method  : String
  address : String
  body    : Option Value := none

/-- What keeps a request from being answered: its address, a number in its body that is not finite,
or a fault that no answer exists for. -/
inductive Failure
  | address (e : AddressError)
  | notFinite
  | fault   (f : Fault)

/-- The wording of the failure. -/
def Failure.message : Failure → String
  | .address e => e.message
  | .notFinite => "Out of range float values are not JSON compliant"
  | .fault f   => f.message

/-- An answer: its status and its body. -/
structure Answer where
  status : Nat
  body   : Value

/-- What the service does. -/
inductive Operation
  | health
  | parse
  | expand
  deriving DecidableEq, Repr

namespace Operation

/-- Every operation. -/
def all : List Operation := [.health, .parse, .expand]

/-- The path of an operation. -/
def path : Operation → String
  | .health => "/health"
  | .parse  => "/parse"
  | .expand => "/expand"

/-- The method of an operation. -/
def method : Operation → String
  | .health => "GET"
  | .parse  => "POST"
  | .expand => "POST"

/-- The operation at a path. -/
def at? (path : String) : Option Operation := all.find? fun o => o.path = path

end Operation

/-! ### Requests -/

mutual

/-- Every number in a value is finite. -/
def isFinite : Value → Bool
  | .null    => true
  | .bool _  => true
  | .int _   => true
  | .float x => x.isFinite
  | .text _  => true
  | .list xs => areFinite xs
  | .map es  => haveFinite es

/-- Every number in the items is finite. -/
def areFinite : List Value → Bool
  | []      => true
  | x :: xs => isFinite x && areFinite xs

/-- Every number in the values of the entries is finite. -/
def haveFinite : List (Value × Value) → Bool
  | []           => true
  | (_, v) :: es => isFinite v && haveFinite es

end

/-! ### Answers -/

mutual

/-- A value as it is sent: a number that is not finite is sent as null. -/
def sent : Value → Value
  | .null    => .null
  | .bool b  => .bool b
  | .int n   => .int n
  | .float x => if x.isFinite then .float x else .null
  | .text s  => .text s
  | .list xs => .list (sentItems xs)
  | .map es  => .map (sentEntries es)

/-- The items of a list as they are sent. -/
def sentItems : List Value → List Value
  | []      => []
  | x :: xs => sent x :: sentItems xs

/-- The entries of a mapping as they are sent. -/
def sentEntries : List (Value × Value) → List (Value × Value)
  | []           => []
  | (k, v) :: es => (k, sent v) :: sentEntries es

end

namespace Answer

/-- The answer to a request that is carried out. -/
def done (v : Value) : Answer := ⟨200, sent v⟩

/-- The answer that says what is wrong. -/
def wrong (status : Nat) (detail : Value) : Answer := ⟨status, .record [("detail", detail)]⟩

/-- The answer to a path that nothing stands at. -/
def notFound : Answer := wrong 404 (.text "Not Found")

/-- The answer to a method that a path does not have. -/
def methodNotAllowed : Answer := wrong 405 (.text "Method Not Allowed")

end Answer

/-- One step into a body as a value. -/
def Step.value : Step → Value
  | .key s  => .text s
  | .item i => .int i

/-- A complaint as a record. -/
def Complaint.record (c : Complaint) : Value :=
  .record [("type", .text c.flaw.code), ("loc", .list (c.place.map (·.value)))]

/-- The answer about a body with complaints. -/
def Answer.complaints (cs : List Complaint) : Answer := .wrong 422 (.list (cs.map (·.record)))

/-- The answer about a fault, if there is one. -/
def Answer.ofFault (f : Fault) : Except Fault Answer :=
  match f with
  | .reported e => .ok (.wrong 422 e.record)
  | .batch b    => .ok (.wrong 422 b.error.record)
  | .overlong _ => .ok (.wrong 400 (.text f.message))
  | .unfit _    => .ok (.wrong 400 (.text f.message))
  | f           => .error f

/-- Checks the body of a request and answers it. -/
def withBody {α : Type} (check : Check α) (body : Option Value)
    (answer : α → Except Fault Answer) : Except Fault Answer :=
  match body with
  | none   => .ok (.complaints [⟨.missing, [.key "body"]⟩])
  | some v =>
    match check [.key "body"] v with
    | .ok a     => answer a
    | .error cs => .ok (.complaints cs)

/-- Shows the directives of a text. -/
def answerText (text : String) : Except Fault Answer :=
  match Reading.ofText text with
  | .ok rs   => .ok (.done (.record [("directives", .list (rs.map (·.record)))]))
  | .error f => Answer.ofFault f

/-- Expands a class into a descriptor of its own. -/
def answerClass (p : Processor) (c : ClassForm) : Except Fault Answer :=
  match c.source with
  | .error e => .ok (.wrong 400 (.text e.message))
  | .ok s    =>
    let pass := p.expandFresh s
    match pass.fault with
    | none   => .ok (.done pass.descriptor.record)
    | some f => Answer.ofFault f

/-- Carries out an operation. -/
def perform (p : Processor) (body : Option Value) : Operation → Except Fault Answer
  | .health => .ok (.done (.record [("status", .text "ok")]))
  | .parse  => withBody textForm body answerText
  | .expand => withBody classForm body (answerClass p)

/-- The paths of the pages about the service.  They are there to be looked at, and are no part of
what is answered here. -/
def pages : List String := ["/openapi.json", "/docs", "/docs/oauth2-redirect", "/redoc"]

/-- Answers a request for a path; slashes at its end do not count. -/
def answerAt (p : Processor) (r : Request) (path : String) : Except Fault Answer :=
  let path   := String.ofList (path.toList.reverse.dropWhile (· = '/')).reverse
  let method := Text.uppered r.method
  match Operation.at? path with
  | some o => if method = o.method then perform p r.body o else .ok .methodNotAllowed
  | none   =>
    .ok (if pages.contains path && method ∉ ["GET", "HEAD"] then .methodNotAllowed else .notFound)

/-- Answers a request. -/
def answer (p : Processor) (r : Request) : Except Failure Answer :=
  match Address.path r.address with
  | .error e => .error (.address e)
  | .ok path =>
    if r.body.all isFinite then (answerAt p r path).mapError .fault else .error .notFinite

end DocDirective.Service
