import DocDirective.Proofs.Arguments.Direct
import DocDirective.Proofs.Arguments.Overlong

/-!
# Proofs — Arguments — Dangling

Placeholders that are written out in an argument text.  The place of a literal is kept by digits
between two NULs, and a text with NULs of its own can hold such a placeholder without the literal
(`Dangles`).  Nothing else keeps a text from having tokens or a problem, and a text without NUL
has none (`not_dangles`).
-/

namespace DocDirective.Arguments

/-- An argument text with placeholders for its literals, in parentheses of its own. -/
def maskedText (text : String) : Masked := mask ('(' :: text.toList ++ [')'])

/-! ### Runs that are no tokens -/

/-- The runs of a masked text, in order. -/
def runs (m : Masked) : List (List Char) := (cut m.text).1 :: (cut m.text).2.map (·.2)

/-- The run is a row of digits between two NULs. -/
def IsPlaceholder (run digits : List Char) : Prop :=
  Text.trim run = nul :: digits ++ [nul] ∧ digits ≠ [] ∧ ∀ c ∈ digits, Text.isDigit c = true

theorem placeholderDigits?_eq_some_iff {cs : List Char} {ds : List Nat} :
    placeholderDigits? cs = some ds
      ↔ ∃ digits, (cs = nul :: digits ++ [nul] ∧ digits ≠ [] ∧ ∀ c ∈ digits, Text.isDigit c = true)
        ∧ ds = digits.filterMap Text.digitValue? := by
  constructor
  · intro h
    unfold placeholderDigits? at h
    split at h
    · cases h
    · rename_i c rest
      split at h
      · rename_i hc
        split at h
        · rename_i d ds' e hspan
          split at h
          · rename_i he
            cases h
            rw [Numeral.spanDigits_eq] at hspan
            obtain ⟨hvalues, hend⟩ := Prod.mk.inj hspan
            refine ⟨rest.takeWhile Text.isDigit, ⟨?_, ?_, ?_⟩, hvalues.symm⟩
            · rw [hc, List.cons_append, ← he, ← hend, List.takeWhile_append_dropWhile]
            · intro hnil
              rw [hnil] at hvalues
              cases hvalues
            · exact fun x hx => List.mem_takeWhile_imp hx
          · cases h
        · cases h
      · cases h
  · rintro ⟨digits, ⟨rfl, hne, hdigits⟩, rfl⟩
    have hspan : Numeral.spanDigits (digits ++ [nul])
        = (digits.filterMap Text.digitValue?, [nul]) := by
      have hnul : Text.isDigit nul = false := by decide
      rw [Numeral.spanDigits_eq, List.takeWhile_append_of_pos hdigits,
        List.dropWhile_append_of_pos hdigits, List.takeWhile_cons_of_neg (by simp [hnul]),
        List.dropWhile_cons_of_neg (by simp [hnul]), List.append_nil]
    have hsome : digits.filterMap Text.digitValue? ≠ [] := by
      rw [← List.length_pos_iff, Numeral.length_digits hdigits]
      exact List.length_pos_iff.2 hne
    obtain ⟨d, ds, hds⟩ := List.exists_cons_of_ne_nil hsome
    rw [hds] at hspan ⊢
    simp only [placeholderDigits?, List.cons_append, if_pos, hspan]

/-- The digits of a placeholder that no literal answers to: they are too many to be read, or stand
for more than the number of the last literal. -/
def NamesNone (literals : List String) (digits : List Char) : Prop :=
  Overlong.limit < digits.length
    ∨ literals.length ≤ Numeral.ofDigits (digits.filterMap Text.digitValue?)

/-- What comes of the digits of a placeholder that no literal answers to. -/
def danglingFailure (digits : List Char) : Failure :=
  if Overlong.limit < digits.length then .overlong (.reading digits.length) else .noSuchLiteral

theorem literalAt_error_iff {lits : List String} {digits : List Char} {f : Failure}
    (hdigits : ∀ c ∈ digits, Text.isDigit c = true) :
    literalAt lits (digits.filterMap Text.digitValue?) = .error f
      ↔ NamesNone lits digits ∧ f = danglingFailure digits := by
  unfold literalAt NamesNone danglingFailure
  rw [Numeral.length_digits hdigits]
  split
  · rename_i hlong
    simp [hlong, eq_comm]
  · rename_i hshort
    cases hget : lits[Numeral.ofDigits (digits.filterMap Text.digitValue?)]? with
    | some s =>
      have hlt := (List.getElem?_eq_some_iff.1 hget).1
      simp [hshort, Nat.not_le.2 hlt]
    | none =>
      have hle := List.getElem?_eq_none_iff.1 hget
      simp [hle, eq_comm]

/-- A run fails with something else than a problem where it is a placeholder that no literal
answers to. -/
theorem ofRun?_error {lits : List String} {run : List Char} {f : Failure}
    (h : Token.ofRun? lits run = .error f) :
    (∃ p, f = .problem p)
      ∨ ∃ digits, IsPlaceholder run digits ∧ NamesNone lits digits
        ∧ f = danglingFailure digits := by
  unfold Token.ofRun? at h
  dsimp only at h
  split at h
  · cases h
  · split at h
    · split at h
      · rename_i ds hds
        obtain ⟨digits, hplace, rfl⟩ := placeholderDigits?_eq_some_iff.1 hds
        cases hlit : literalAt lits (digits.filterMap Text.digitValue?) with
        | ok s =>
          rw [hlit] at h
          cases h
        | error e =>
          rw [hlit] at h
          cases h
          exact .inr ⟨digits, hplace, (literalAt_error_iff hplace.2.2).1 hlit⟩
      · cases h
        exact .inl ⟨_, rfl⟩
    · split at h
      · cases h
        exact .inl ⟨_, rfl⟩
      · cases h

theorem ofRun?_of_dangling {lits : List String} {run digits : List Char}
    (hplace : IsPlaceholder run digits) (hnone : NamesNone lits digits) :
    Token.ofRun? lits run = .error (danglingFailure digits) := by
  have hds := placeholderDigits?_eq_some_iff.2 ⟨digits, hplace, rfl⟩
  have hlit := (literalAt_error_iff hplace.2.2).2 ⟨hnone, rfl⟩
  have hempty : (Text.trim run).isEmpty = false := by rw [hplace.1]; rfl
  have hnul : (Text.trim run).contains nul = true := by
    rw [hplace.1, List.contains_iff_mem]
    exact List.mem_cons_self
  unfold Token.ofRun?
  simp only [hempty, hnul, hds, hlit]
  rfl

/-- The first run that is neither blank nor a token, with the runs in front of it. -/
def FirstFailing (lits : List String) (rs : List (List Char)) (run : List Char) : Prop :=
  ∃ before after, rs = before ++ run :: after ∧ ∀ r ∈ before, ∃ t?, Token.ofRun? lits r = .ok t?

theorem firstFailing_cons {lits : List String} {rs : List (List Char)} {r run : List Char}
    {t? : Option Token} (hr : Token.ofRun? lits r = .ok t?) (h : FirstFailing lits rs run) :
    FirstFailing lits (r :: rs) run := by
  obtain ⟨before, after, rfl, hbefore⟩ := h
  exact ⟨r :: before, after, rfl, List.forall_mem_cons.2 ⟨⟨t?, hr⟩, hbefore⟩⟩

theorem ofRuns_error {lits : List String} {rs : List (Mark × List Char)} {f : Failure}
    (h : Token.ofRuns lits rs = .error f) :
    ∃ run, FirstFailing lits (rs.map (·.2)) run ∧ Token.ofRun? lits run = .error f := by
  induction rs with
  | nil => cases h
  | cons r rs ih =>
    obtain ⟨m, run⟩ := r
    obtain hr | ⟨t, hr, h⟩ := error_of_bind h
    · exact ⟨run, ⟨[], rs.map (·.2), rfl, by simp⟩, hr⟩
    · obtain hrs | ⟨ts, -, h⟩ := error_of_bind h
      · obtain ⟨run', hfirst, hfail⟩ := ih hrs
        exact ⟨run', firstFailing_cons hr hfirst, hfail⟩
      · cases h

theorem ofRuns_of_firstFailing {lits : List String} {rs : List (Mark × List Char)} {f : Failure}
    {run : List Char} (hfirst : FirstFailing lits (rs.map (·.2)) run)
    (hfail : Token.ofRun? lits run = .error f) : Token.ofRuns lits rs = .error f := by
  obtain ⟨before, after, heq, hbefore⟩ := hfirst
  induction rs generalizing before with
  | nil => cases before <;> cases heq
  | cons r rs ih =>
    obtain ⟨m, r⟩ := r
    rw [Token.ofRuns]
    cases before with
    | nil =>
      obtain ⟨rfl, -⟩ := List.cons.inj heq
      simp only at hfail
      rw [hfail]
      rfl
    | cons b before =>
      obtain ⟨rfl, htail⟩ := List.cons.inj heq
      rw [List.forall_mem_cons] at hbefore
      obtain ⟨⟨t, ht⟩, hbefore⟩ := hbefore
      simp only at ht
      rw [ht, ih before htail hbefore]
      rfl

/-- A masked text has no tokens where one of its runs is none; the first such run says why. -/
theorem ofMasked_error_iff {m : Masked} {f : Failure} :
    Token.ofMasked m = .error f
      ↔ ∃ run, FirstFailing m.literals (runs m) run ∧ Token.ofRun? m.literals run = .error f := by
  rw [Token.ofMasked_eq]
  constructor
  · intro h
    obtain hr | ⟨t, hr, h⟩ := error_of_bind h
    · exact ⟨_, ⟨[], _, rfl, by simp⟩, hr⟩
    · obtain hrs | ⟨ts, -, h⟩ := error_of_bind h
      · obtain ⟨run, hfirst, hfail⟩ := ofRuns_error hrs
        exact ⟨run, firstFailing_cons hr hfirst, hfail⟩
      · cases h
  · rintro ⟨run, ⟨before, after, heq, hbefore⟩, hfail⟩
    cases before with
    | nil =>
      obtain ⟨rfl, -⟩ := List.cons.inj heq
      rw [hfail]
      rfl
    | cons b before =>
      obtain ⟨rfl, htail⟩ := List.cons.inj heq
      rw [List.forall_mem_cons] at hbefore
      obtain ⟨⟨t, ht⟩, hbefore⟩ := hbefore
      rw [ht, ofRuns_of_firstFailing ⟨before, after, htail, hbefore⟩ hfail]
      rfl

/-- The first run of the text that is no token is a placeholder with some digits, written out in
the text, that no literal answers to. -/
def Dangles (text : String) (digits : List Char) : Prop :=
  ∃ run, FirstFailing (maskedText text).literals (runs (maskedText text)) run
    ∧ IsPlaceholder run digits ∧ NamesNone (maskedText text).literals digits

theorem ofText_error {text : String} {f : Failure} (h : Token.ofText text = .error f) :
    (∃ p, f = .problem p) ∨ ∃ digits, Dangles text digits ∧ f = danglingFailure digits := by
  obtain ⟨run, hfirst, hfail⟩ := ofMasked_error_iff.1 h
  obtain hproblem | ⟨digits, hplace, hnone, hf⟩ := ofRun?_error hfail
  · exact .inl hproblem
  · exact .inr ⟨digits, ⟨run, hfirst, hplace, hnone⟩, hf⟩

theorem ofText_of_dangles {text : String} {digits : List Char} (h : Dangles text digits) :
    Token.ofText text = .error (danglingFailure digits) := by
  obtain ⟨run, hfirst, hplace, hnone⟩ := h
  exact ofMasked_error_iff.2 ⟨run, hfirst, ofRun?_of_dangling hplace hnone⟩

/-! ### Texts without NUL -/

theorem token?_error {run : List Piece} {f : Failure} (h : Piece.token? run = .error f) :
    ∃ p, f = .problem p := by
  unfold Piece.token? Piece.trimmedToken? at h
  split at h
  · cases h
  · cases h
  · split at h
    · split at h
      · cases h
        exact ⟨_, rfl⟩
      · cases h
    · cases h
      exact ⟨_, rfl⟩

theorem tokensOfRuns_error {rs : List (Mark × List Piece)} {f : Failure}
    (h : Piece.tokensOfRuns rs = .error f) : ∃ p, f = .problem p := by
  induction rs with
  | nil => cases h
  | cons r rs ih =>
    obtain hr | ⟨t, -, h⟩ := error_of_bind h
    · exact token?_error hr
    · obtain hrs | ⟨ts, -, h⟩ := error_of_bind h
      · exact ih hrs
      · cases h

/-- Pieces have tokens or a problem. -/
theorem tokens_error {ps : List Piece} {f : Failure} (h : Piece.tokens ps = .error f) :
    ∃ p, f = .problem p := by
  obtain hr | ⟨t, -, h⟩ := error_of_bind h
  · exact token?_error hr
  · obtain hrs | ⟨ts, -, h⟩ := error_of_bind h
    · exact tokensOfRuns_error hrs
    · cases h

theorem not_dangles {text : String} (hnul : nul ∉ text.toList)
    (hn : text.length + 2 ≤ 10 ^ Overlong.limit) (digits : List Char) :
    ¬ Dangles text digits := by
  intro h
  have hlen : ('(' :: text.toList ++ [')']).length ≤ 10 ^ Overlong.limit := by
    rwa [List.length_append, List.length_cons, String.length_toList]
  have htokens := ofText_of_dangles h
  rw [Token.ofText, Piece.ofMasked_mask (isClean_parens hnul) hlen] at htokens
  obtain ⟨p, hp⟩ := tokens_error htokens
  unfold danglingFailure at hp
  split at hp <;> cases hp

end DocDirective.Arguments
