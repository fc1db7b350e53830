import DocDirective.Arguments.Token
import DocDirective.Proofs.Text.Blank

/-!
# Proofs — Arguments — Piece

A text as a row of pieces, which are its literals and the characters outside them.  Masking writes
the pieces out again with placeholders; cutting them at their marks and looking at the trimmed runs
gives tokens without any masking.
-/

namespace DocDirective.Arguments

/-- A piece of a text: a literal, or a character outside the literals. -/
inductive Piece
  | char    (c : Char)
  | literal (content : String)
  deriving DecidableEq

namespace Piece

/-- The pieces of a text. -/
def ofText : List Char → List Piece
  | []        => []
  | c :: rest =>
    if isQuote c then
      match h : spanLiteral c false rest with
      | some (content, after) =>
        have := length_of_spanLiteral h
        .literal (String.ofList (unescape c content)) :: ofText after
      | none => .char c :: ofText rest
    else .char c :: ofText rest
  termination_by cs => cs.length

/-- The literals among pieces. -/
def literals : List Piece → List String
  | []               => []
  | .char _ :: ps    => literals ps
  | .literal s :: ps => s :: literals ps

/-- The pieces as a masked text; the first literal gets the number `n`. -/
def masked (n : Nat) : List Piece → List Char
  | []               => []
  | .char c :: ps    => c :: masked n ps
  | .literal _ :: ps => placeholder n ++ masked (n + 1) ps

/-- The character is no NUL. -/
def isClean : Piece → Bool
  | .char c    => c != nul
  | .literal _ => true

/-! ### One step of each reading -/

section Steps

variable {c : Char} {rest content after : List Char}

theorem ofText_char (hc : isQuote c = false) : ofText (c :: rest) = .char c :: ofText rest := by
  rw [ofText, hc, if_neg Bool.false_ne_true]

theorem ofText_literal (hc : isQuote c = true)
    (h : spanLiteral c false rest = some (content, after)) :
    ofText (c :: rest) = .literal (String.ofList (unescape c content)) :: ofText after := by
  rw [ofText, if_pos hc]
  split <;> rename_i h' <;> cases h.symm.trans h'
  rfl

theorem ofText_open (hc : isQuote c = true) (h : spanLiteral c false rest = none) :
    ofText (c :: rest) = .char c :: ofText rest := by
  rw [ofText, if_pos hc]
  split <;> rename_i h' <;> cases h.symm.trans h'
  rfl

theorem maskFrom_char (n : Nat) (hc : isQuote c = false) :
    maskFrom n (c :: rest) = ⟨c :: (maskFrom n rest).text, (maskFrom n rest).literals⟩ := by
  rw [maskFrom, hc, if_neg Bool.false_ne_true]

theorem maskFrom_literal (n : Nat) (hc : isQuote c = true)
    (h : spanLiteral c false rest = some (content, after)) :
    maskFrom n (c :: rest) = ⟨placeholder n ++ (maskFrom (n + 1) after).text,
      String.ofList (unescape c content) :: (maskFrom (n + 1) after).literals⟩ := by
  rw [maskFrom, if_pos hc]
  split <;> rename_i h' <;> cases h.symm.trans h'
  rfl

theorem maskFrom_open (n : Nat) (hc : isQuote c = true) (h : spanLiteral c false rest = none) :
    maskFrom n (c :: rest) = ⟨c :: (maskFrom n rest).text, (maskFrom n rest).literals⟩ := by
  rw [maskFrom, if_pos hc]
  split <;> rename_i h' <;> cases h.symm.trans h'
  rfl

end Steps

/-- Masking writes the pieces of a text out again, with placeholders. -/
theorem maskFrom_eq (n : Nat) (cs : List Char) :
    maskFrom n cs = ⟨masked n (ofText cs), literals (ofText cs)⟩ := by
  induction cs using ofText.induct generalizing n with
  | case1 => rw [maskFrom, ofText]; rfl
  | case2 c rest hc content after h _ ih =>
    rw [maskFrom_literal n hc h, ofText_literal hc h, ih]
    rfl
  | case3 c rest hc h ih =>
    rw [maskFrom_open n hc h, ofText_open hc h, ih]
    rfl
  | case4 c rest hc ih =>
    rw [Bool.not_eq_true] at hc
    rw [maskFrom_char n hc, ofText_char hc, ih]
    rfl

theorem mask_eq (cs : List Char) : mask cs = ⟨masked 0 (ofText cs), literals (ofText cs)⟩ :=
  maskFrom_eq 0 cs

@[simp]
theorem literals_append (ps qs : List Piece) :
    literals (ps ++ qs) = literals ps ++ literals qs := by
  induction ps with
  | nil => rfl
  | cons p ps ih => cases p <;> simp [literals, ih]

theorem masked_append (n : Nat) (ps qs : List Piece) :
    masked n (ps ++ qs) = masked n ps ++ masked (n + (literals ps).length) qs := by
  induction ps generalizing n with
  | nil => rfl
  | cons p ps ih =>
    cases p with
    | char c => simp [masked, literals, ih]
    | literal s =>
      -- the numbers go on behind this literal's
      simp only [List.cons_append, masked, literals, ih, List.length_cons, List.append_assoc]
      congr 3
      omega

/-- A text has no more literals than characters. -/
theorem length_literals_le (cs : List Char) : (literals (ofText cs)).length ≤ cs.length := by
  induction cs using ofText.induct with
  | case1 => rw [ofText]; exact Nat.le_refl 0
  | case2 c rest hc content after h hlt ih =>
    rw [ofText_literal hc h]
    simp only [literals, List.length_cons]
    omega
  | case3 c rest hc h ih =>
    rw [ofText_open hc h]
    exact Nat.le_succ_of_le ih
  | case4 c rest hc ih =>
    rw [ofText_char (eq_false_of_ne_true hc)]
    exact Nat.le_succ_of_le ih

/-! ### Runs of pieces -/

/-- The run before the first mark, and every mark with the run behind it. -/
def cut : List Piece → List Piece × List (Mark × List Piece)
  | []               => ([], [])
  | .literal s :: ps => (.literal s :: (cut ps).1, (cut ps).2)
  | .char c :: ps    =>
    match Mark.ofChar? c with
    | some m => ([], (m, (cut ps).1) :: (cut ps).2)
    | none   => (.char c :: (cut ps).1, (cut ps).2)

/-- A blank outside the literals. -/
def isBlank : Piece → Bool
  | .char c    => Text.isBlank c
  | .literal _ => false

/-- Without the blanks at both ends. -/
def trim (ps : List Piece) : List Piece :=
  ((ps.dropWhile isBlank).reverse.dropWhile isBlank).reverse

/-- A quote outside the literals. -/
def isOpenQuote : Piece → Bool
  | .char c    => isQuote c
  | .literal _ => false

/-- The characters outside the literals. -/
def chars : List Piece → List Char
  | []               => []
  | .char c :: ps    => c :: chars ps
  | .literal _ :: ps => chars ps

/-- The token of a run without blanks at its ends, if there is anything in it. -/
def trimmedToken? : List Piece → Except Failure (Option Token)
  | []           => .ok none
  | [.literal s] => .ok (some (.literal s))
  | ps           =>
    if (literals ps).isEmpty then
      if ps.any isOpenQuote then .error (.problem .unterminated)
      else .ok (some (.word (String.ofList (chars ps))))
    else .error (.problem .runTogether)

/-- The token of a run, if it is not blank: one literal, or a word. -/
def token? (run : List Piece) : Except Failure (Option Token) := trimmedToken? (trim run)

/-- The tokens of marks and the runs behind them. -/
def tokensOfRuns : List (Mark × List Piece) → Except Failure (List Token)
  | []               => .ok []
  | (m, run) :: rest => do
    let t ← token? run
    let ts ← tokensOfRuns rest
    return .mark m :: (t.toList ++ ts)

/-- The tokens of pieces. -/
def tokens (ps : List Piece) : Except Failure (List Token) := do
  let t ← token? (cut ps).1
  let ts ← tokensOfRuns (cut ps).2
  return t.toList ++ ts

end Piece

end DocDirective.Arguments
