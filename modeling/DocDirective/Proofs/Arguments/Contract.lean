import DocDirective.Processor
import DocDirective.Proofs.Arguments.Dangling
import DocDirective.Proofs.Arguments.Overrun

/-!
# Proofs — Arguments — Contract

What reading the arguments of a directive can come to.  There are parameters, or an error about the
arguments, but for two things: a placeholder that is written out in the text and that no literal
answers to (`Dangles`), and a whole number with too many digits where a value is read (`Overruns`).
The first of them that is met ends the reading; texts with neither keep to parameters and errors.
-/

namespace DocDirective.Arguments

/-! ### Texts without parameters -/

theorem evaluate_error {text : String} {f : Failure} (h : evaluate text = .error f) :
    (∃ p, f = .problem p) ∨ (∃ digits, Dangles text digits ∧ f = danglingFailure digits)
      ∨ ∃ n, Overruns text n ∧ f = .overlong (.reading n) := by
  obtain hts | ⟨ts, hts, h⟩ := error_of_bind h
  · obtain hproblem | hdangles := ofText_error hts
    · exact .inl hproblem
    · exact .inr (.inl hdangles)
  · obtain hes | ⟨es, -, h⟩ := error_of_bind h
    · obtain hproblem | ⟨w, n, ⟨rest, rfl, hmeets⟩, hlong, hf⟩ := parse_error hes
      · exact .inl hproblem
      · exact .inr (.inr ⟨n, ⟨rest, w, hts, hmeets, hlong⟩, hf⟩)
    · cases h

theorem evaluate_of_dangles {text : String} {digits : List Char} (h : Dangles text digits) :
    evaluate text = .error (danglingFailure digits) := by
  rw [evaluate, ofText_of_dangles h]
  rfl

theorem evaluate_of_overruns {text : String} {n : Nat} (h : Overruns text n) :
    evaluate text = .error (.overlong (.reading n)) := by
  obtain ⟨rest, w, hts, hmeets, hlong⟩ := h
  simp only [evaluate, hts, parse_of_meets hlong hmeets, bind, Except.bind]

theorem evaluate_eq_noSuchLiteral_iff {text : String} :
    evaluate text = .error .noSuchLiteral
      ↔ ∃ digits, Dangles text digits ∧ digits.length ≤ Overlong.limit := by
  constructor
  · intro h
    obtain ⟨p, hp⟩ | ⟨digits, hdangles, hf⟩ | ⟨n, -, hf⟩ := evaluate_error h
    · cases hp
    · refine ⟨digits, hdangles, Nat.not_lt.1 fun hlong => ?_⟩
      rw [danglingFailure, if_pos hlong] at hf
      cases hf
    · cases hf
  · rintro ⟨digits, hdangles, hshort⟩
    rw [evaluate_of_dangles hdangles, danglingFailure, if_neg (Nat.not_lt.2 hshort)]

theorem evaluate_eq_overlong_iff {text : String} {o : Overlong} :
    evaluate text = .error (.overlong o)
      ↔ ∃ n, o = .reading n ∧ (Overruns text n
        ∨ Overlong.limit < n ∧ ∃ digits, Dangles text digits ∧ digits.length = n) := by
  constructor
  · intro h
    obtain ⟨p, hp⟩ | ⟨digits, hdangles, hf⟩ | ⟨n, hoverruns, hf⟩ := evaluate_error h
    · cases hp
    · unfold danglingFailure at hf
      split at hf
      · rename_i hlong
        cases hf
        exact ⟨_, rfl, .inr ⟨hlong, digits, hdangles, rfl⟩⟩
      · cases hf
    · cases hf
      exact ⟨n, rfl, .inl hoverruns⟩
  · rintro ⟨n, rfl, hoverruns | ⟨hlong, digits, hdangles, rfl⟩⟩
    · exact evaluate_of_overruns hoverruns
    · rw [evaluate_of_dangles hdangles, danglingFailure, if_pos hlong]

theorem evaluate_answers_iff {text : String} :
    ((∃ ps, evaluate text = .ok ps) ∨ ∃ p, evaluate text = .error (.problem p))
      ↔ (∀ digits, ¬ Dangles text digits) ∧ ∀ n, ¬ Overruns text n := by
  constructor
  · intro h
    constructor
    · intro digits hdangles
      rw [evaluate_of_dangles hdangles, danglingFailure] at h
      obtain ⟨ps, h⟩ | ⟨p, h⟩ := h
      · cases h
      · split at h <;> cases h
    · intro n hoverruns
      rw [evaluate_of_overruns hoverruns] at h
      obtain ⟨ps, h⟩ | ⟨p, h⟩ := h <;> cases h
  · rintro ⟨hdangles, hoverruns⟩
    cases h : evaluate text with
    | ok ps => exact .inl ⟨ps, rfl⟩
    | error f =>
      obtain ⟨p, rfl⟩ | ⟨digits, hd, -⟩ | ⟨n, ho, -⟩ := evaluate_error h
      · exact .inr ⟨p, rfl⟩
      · exact absurd hd (hdangles digits)
      · exact absurd ho (hoverruns n)

/-! ### What reading comes to -/

section Reading

variable {name? : Option String} {text : String}

theorem read_eq_outOfRange_iff :
    read name? text = .error .outOfRange ↔ evaluate text = .error .noSuchLiteral := by
  unfold read
  split <;> simp_all

theorem read_eq_overlong_iff {o : Overlong} :
    read name? text = .error (.overlong o) ↔ evaluate text = .error (.overlong o) := by
  unfold read
  split <;> simp_all

theorem read_answers_iff :
    ((∃ ps, read name? text = .ok ps)
        ∨ ∃ p, read name? text = .error (.reported (malformed name? text p)))
      ↔ (∃ ps, evaluate text = .ok ps) ∨ ∃ p, evaluate text = .error (.problem p) := by
  unfold read
  split <;> rename_i h <;> simp [h]

end Reading

/-- **What reading arguments can come to.**  There are parameters or an error about the arguments,
but where a placeholder is met that no literal answers to, or a whole number with more digits than
a number is read from.  Neither is met in a text without NUL whose words are short enough to be
read. -/
theorem read_contract (name? : Option String) (text : String) :
    (read name? text = .error .outOfRange
      ↔ ∃ digits, Dangles text digits ∧ digits.length ≤ Overlong.limit)
    ∧ (∀ o, read name? text = .error (.overlong o) ↔ ∃ n, o = .reading n ∧ (Overruns text n
      ∨ Overlong.limit < n ∧ ∃ digits, Dangles text digits ∧ digits.length = n))
    ∧ (((∃ ps, read name? text = .ok ps)
        ∨ ∃ p, read name? text = .error (.reported (malformed name? text p)))
      ↔ (∀ digits, ¬ Dangles text digits) ∧ ∀ n, ¬ Overruns text n)
    ∧ (nul ∉ text.toList → text.length + 2 ≤ 10 ^ Overlong.limit →
      (∀ ts w n, Token.ofText text = .ok ts → .word w ∈ ts → ¬ TooLong w n) →
      (∃ ps, read name? text = .ok ps)
        ∨ ∃ p, read name? text = .error (.reported (malformed name? text p))) := by
  refine ⟨read_eq_outOfRange_iff.trans evaluate_eq_noSuchLiteral_iff,
    fun o => read_eq_overlong_iff.trans evaluate_eq_overlong_iff,
    read_answers_iff.trans evaluate_answers_iff, fun hnul hn hwords => ?_⟩
  refine read_answers_iff.2 (evaluate_answers_iff.2 ⟨not_dangles hnul hn, fun n hoverruns => ?_⟩)
  obtain ⟨rest, w, hts, hmeets, hlong⟩ := hoverruns
  exact hwords _ w n hts (List.mem_cons_of_mem _ hmeets.mem) hlong

/-- The placeholder of a first literal, in a text without any. -/
def lonePlaceholder : String := String.ofList [nul, '0', nul]

theorem read_contract_lonePlaceholder :
    read none lonePlaceholder = .error .outOfRange
      ∧ ∃ digits, Dangles lonePlaceholder digits ∧ digits.length ≤ Overlong.limit := by
  have htext : lonePlaceholder.toList = [nul, '0', nul] := String.toList_ofList
  have hread : read none lonePlaceholder = .error .outOfRange := by
    rw [read, evaluate, Token.ofText, htext]
    with_unfolding_all rfl
  exact ⟨hread, (read_contract none lonePlaceholder).1.1 hread⟩

end DocDirective.Arguments
