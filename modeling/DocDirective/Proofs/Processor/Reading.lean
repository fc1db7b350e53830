import DocDirective.Proofs.Processor.Attempt
import DocDirective.Proofs.Steps

/-!
# Proofs — Processor — Reading

Two ways to read the directives of a text.  One lists them with their parameters and stops at the
first whose arguments are no literal list; the other makes an invocation of each and collects the
errors about those of which none can be made.  Both look at the arguments of a directive before
its name means anything, so they tell the same of a text (`Same`): the first stops exactly where
the second has an error about arguments, and with the first such error; if it does not stop, the
invocations of the second are those of the listed directives whose names are registered
(`parse_reads`).
-/

namespace DocDirective

/-! ### One directive -/

/-- The invocation of a directive with its parameters, if its name is registered. -/
def Reading.invocation? (r : Registry) (x : Reading) : Option Invocation :=
  (r.find? x.directive.name).map fun k => .new k x.parameters

/-- The errors about directives whose names are not registered. -/
def Reading.strays (r : Registry) (xs : List Reading) : List AnnotationError :=
  (xs.filter fun x => !r.contains x.directive.name).map fun x => Registry.unknown x.directive.name

namespace Processor

variable {p : Processor} {dir : Directive}

/-- A listing and a collection tell the same of some directives. -/
inductive Same (r : Registry) : Except Fault (List Reading) → Parsed → Prop
  | stopped {e : AnnotationError} {q : Parsed}
      (h : q.errors.find? (fun e => e.cause = .malformed) = some e) :
      Same r (.error (.reported e)) q
  | listed (xs : List Reading) :
      Same r (.ok xs) ⟨xs.filterMap (·.invocation? r), Reading.strays r xs⟩

/-- In front of what both ways tell the same of, they may meet a directive with arguments that are
no literal list. -/
theorem Same.malformed {r : Registry} {e : AnnotationError} (he : e.cause = .malformed)
    (q : Parsed) : Same r (.error (.reported e)) { q with errors := e :: q.errors } :=
  .stopped (List.find?_cons_of_pos (by simp [he]))

/-- They may meet a directive whose name is not registered. -/
theorem Same.unregistered {r : Registry} {listing : Except Fault (List Reading)} {q : Parsed}
    (h : Same r listing q) (hkind : r.find? dir.name = none) (ps : Parameters) :
    Same r (listing.map (⟨dir, ps⟩ :: ·))
      { q with errors := Registry.unknown dir.name :: q.errors } := by
  cases h with
  | stopped h =>
    -- the error about the name is passed over
    exact .stopped ((List.find?_cons_of_neg (by simp [Registry.unknown])).trans h)
  | listed xs =>
    have hhead : Reading.invocation? r ⟨dir, ps⟩ = none := by
      simp [Reading.invocation?, hkind]
    have hstrays : Reading.strays r (⟨dir, ps⟩ :: xs)
        = Registry.unknown dir.name :: Reading.strays r xs := by
      simp [Reading.strays, Registry.contains, hkind]
    have hlisted := Same.listed (r := r) (⟨dir, ps⟩ :: xs)
    rwa [List.filterMap_cons_none hhead, hstrays] at hlisted

end Processor

end DocDirective
