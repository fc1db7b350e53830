import DocDirective.Service.Whole
import DocDirective.Value.Basic

/-!
# Service — Body

Checks of the bodies of requests.  A check gives what it looks for or every complaint about it, in
the order of the fields; a complaint says what is wrong and where in the body.
-/

namespace DocDirective.Service

/-- One step into a body. -/
inductive Step
  | key  (name : String)
  | item (index : Nat)
  deriving DecidableEq, Repr

/-- What can be wrong with a part of a body. -/
inductive Flaw
  | missing
  | notText
  | notList
  | notWhole
  | unreadableWhole
  | overlongWhole
  | fractional
  | notFinite
  | notRecord
  deriving DecidableEq, Repr

/-- The word for a flaw. -/
def Flaw.code : Flaw → String
  | .missing         => "missing"
  | .notText         => "string_type"
  | .notList         => "list_type"
  | .notWhole        => "int_type"
  | .unreadableWhole => "int_parsing"
  | .overlongWhole   => "int_parsing_size"
  | .fractional      => "int_from_float"
  | .notFinite       => "finite_number"
  | .notRecord       => "model_attributes_type"

/-- A flaw and the way to it. -/
structure Complaint where
  flaw  : Flaw
  place : List Step
  deriving DecidableEq, Repr

/-- What a check gives. -/
abbrev Checked (α : Type) := Except (List Complaint) α

namespace Checked

variable {α β : Type}

/-- A single complaint. -/
def complain (flaw : Flaw) (place : List Step) : Checked α := .error [⟨flaw, place⟩]

/-- Joins two checks; the complaints of both are kept. -/
def both (a : Checked α) (b : Checked β) : Checked (α × β) :=
  match a, b with
  | .ok x,    .ok y    => .ok (x, y)
  | .error c, .ok _    => .error c
  | .ok _,    .error d => .error d
  | .error c, .error d => .error (c ++ d)

end Checked

/-- A check of the value at a place. -/
abbrev Check (α : Type) := List Step → Value → Checked α

namespace Check

variable {α : Type}

/-- A text. -/
def text : Check String
  | _,     .text s => .ok s
  | place, _       => Checked.complain .notText place

/-- A whole number, also given as a truth value, as a text or with a fraction of zero. -/
def whole : Check Int
  | _,     .int n   => .ok n
  | _,     .bool b  => .ok (Value.ofBool b)
  | place, .float x =>
    match x.toInt? with
    | some n => if n.natAbs < Nat.pow 2 63 then .ok n else Checked.complain .overlongWhole place
    | none   => Checked.complain (if x.isFinite then .fractional else .notFinite) place
  | place, .text s  =>
    match Whole.ofText s with
    | .ok n              => .ok n
    | .error .unreadable => Checked.complain .unreadableWhole place
    | .error .tooLong    => Checked.complain .overlongWhole place
  | place, _        => Checked.complain .notWhole place

/-- A part that may be null. -/
def optional (check : Check α) : Check (Option α)
  | _,     .null => .ok none
  | place, v     => (check place v).map some

/-- Checks the items of a list from some index on. -/
def itemsFrom (check : Check α) (place : List Step) (i : Nat) : List Value → Checked (List α)
  | []      => .ok []
  | v :: vs =>
    (Checked.both (check (place ++ [.item i]) v) (itemsFrom check place (i + 1) vs)).map
      fun r => r.1 :: r.2

/-- A list. -/
def list (check : Check α) : Check (List α)
  | place, .list vs => itemsFrom check place 0 vs
  | place, _        => Checked.complain .notList place

/-- A record, whose fields a form looks at. -/
def record (form : List Step → List (Value × Value) → Checked α) : Check α
  | place, .map fields => form place fields
  | place, _           => Checked.complain .notRecord place

/-- The field of a key, which must be there. -/
def required (check : Check α) (key : String) (place : List Step)
    (fields : List (Value × Value)) : Checked α :=
  match Value.field? fields key with
  | some v => check (place ++ [.key key]) v
  | none   => Checked.complain .missing (place ++ [.key key])

/-- The field of a key, or a default where it is missing. -/
def given (check : Check α) (default : α) (key : String) (place : List Step)
    (fields : List (Value × Value)) : Checked α :=
  match Value.field? fields key with
  | some v => check (place ++ [.key key]) v
  | none   => .ok default

end Check

end DocDirective.Service
