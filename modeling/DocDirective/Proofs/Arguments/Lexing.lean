import DocDirective.Arguments.Render
import DocDirective.Proofs.Arguments.Runs
import Mathlib.Data.List.Forall2

/-!
# Proofs — Arguments — Lexing

How the tokens of a text follow from the tokens of its parts.  A part is read on its own where a
mark stands behind it: a word, a quoted literal, parts with commas between them, a part in
parentheses, and a part with a key in front.
-/

namespace DocDirective.Arguments

/-- A text gives some tokens, and no NUL stands outside its literals. -/
def Lexes (cs : List Char) (ts : List Token) : Prop :=
  (∀ p ∈ Piece.ofText cs, p.isClean = true) ∧ Piece.tokens (Piece.ofText cs) = .ok ts

/-- A text gives some tokens wherever a mark stands behind it. -/
def LexesAs (cs : List Char) (ts : List Token) : Prop :=
  ∀ m rest us, Lexes (m.char :: rest) (.mark m :: us) →
    Lexes (cs ++ m.char :: rest) (ts ++ .mark m :: us)

theorem lexes_nil : Lexes [] [] := by
  rw [Lexes, Piece.ofText]
  exact ⟨by simp, rfl⟩

/-- A text that gives some tokens by its pieces gives them through the mask. -/
theorem Lexes.ofText {text : String} {ts : List Token}
    (h : Lexes ('(' :: text.toList ++ [')']) ts)
    (hn : text.length + 2 ≤ 10 ^ Overlong.limit) : Token.ofText text = .ok ts := by
  refine (Piece.ofMasked_mask h.1 ?_).trans h.2
  rwa [List.length_append, List.length_cons, String.length_toList]

/-! ### Marks and blanks -/

theorem Mark.isQuote_char (m : Mark) : isQuote m.char = false := by
  cases m <;> decide

theorem ofText_mark (m : Mark) (cs : List Char) :
    Piece.ofText (m.char :: cs) = .char m.char :: Piece.ofText cs :=
  Piece.ofText_char m.isQuote_char

theorem tokens_mark (m : Mark) (ps : List Piece) :
    Piece.tokens (.char m.char :: ps) = (Piece.tokens ps).map (.mark m :: ·) := by
  refine (Piece.tokens_append_mark [] m ps).trans ?_
  cases Piece.tokens ps <;> rfl

theorem lexes_mark (m : Mark) {cs : List Char} {ts : List Token} (h : Lexes cs ts) :
    Lexes (m.char :: cs) (.mark m :: ts) := by
  rw [Lexes, ofText_mark, tokens_mark, h.2]
  refine ⟨List.forall_mem_cons.2 ⟨?_, h.1⟩, rfl⟩
  cases m <;> decide

theorem lexes_space {cs : List Char} {ts : List Token} (h : Lexes cs ts) :
    Lexes (' ' :: cs) ts := by
  rw [Lexes, Piece.ofText_char (by decide)]
  refine ⟨List.forall_mem_cons.2 ⟨by decide, h.1⟩, ?_⟩
  rw [← List.singleton_append, Piece.tokens_blank_append (by decide), h.2]

/-! ### Words and literals -/

/-- A run that is one token is read as that token where a mark stands behind it. -/
theorem lexesAs_run {cs : List Char} {run : List Piece} {t : Token}
    (hcs : ∀ rest, Piece.ofText (cs ++ rest) = run ++ Piece.ofText rest)
    (hclean : ∀ p ∈ run, p.isClean = true) (hm : Unmarked run)
    (ht : Piece.token? run = .ok (some t)) : LexesAs cs [t] := by
  intro m rest us h
  rw [Lexes, ofText_mark, tokens_mark] at h
  rw [Lexes, hcs, ofText_mark, Piece.tokens_append_mark, Piece.tokens_unmarked hm, ht]
  refine ⟨fun p hp => (List.mem_append.1 hp).elim (hclean p) (h.1 p), ?_⟩
  have hrest := h.2
  cases hr : Piece.tokens (Piece.ofText rest) with
  | error f =>
    rw [hr] at hrest
    cases hrest
  | ok vs =>
    rw [hr] at hrest
    cases hrest
    rfl

/-- A character that a word may hold anywhere: no blank, no mark, no quote and no NUL. -/
def isPlain (c : Char) : Bool :=
  !Text.isBlank c && (Mark.ofChar? c).isNone && !isQuote c && c != nul

theorem ofText_append {w : List Char} (h : ∀ c ∈ w, isQuote c = false) (rest : List Char) :
    Piece.ofText (w ++ rest) = w.map .char ++ Piece.ofText rest := by
  induction w with
  | nil => rfl
  | cons c w ih =>
    rw [List.forall_mem_cons] at h
    rw [List.cons_append, Piece.ofText_char h.1, ih h.2]
    rfl

theorem chars_map_char (w : List Char) : Piece.chars (w.map .char) = w := by
  induction w with
  | nil => rfl
  | cons c w ih => rw [List.map_cons, Piece.chars, ih]

theorem literals_map_char (w : List Char) : Piece.literals (w.map .char) = [] := by
  induction w with
  | nil => rfl
  | cons c w ih => exact ih

theorem trim_eq_self {ps : List Piece} (h : ∀ p ∈ ps, p.isBlank = false) : Piece.trim ps = ps := by
  have hstart (qs : List Piece) (hq : ∀ p ∈ qs, p.isBlank = false) :
      qs.dropWhile Piece.isBlank = qs := by
    cases qs with
    | nil => rfl
    | cons q qs => exact List.dropWhile_cons_of_neg (by simp [hq q List.mem_cons_self])
  rw [Piece.trim, hstart ps h, hstart ps.reverse fun p hp => h p (List.mem_reverse.1 hp),
    List.reverse_reverse]

theorem trimmedToken?_char (c : Char) (ps : List Piece) :
    Piece.trimmedToken? (.char c :: ps) =
      if (Piece.literals (.char c :: ps)).isEmpty then
        if (Piece.char c :: ps).any Piece.isOpenQuote then .error (.problem .unterminated)
        else .ok (some (.word (String.ofList (Piece.chars (.char c :: ps)))))
      else .error (.problem .runTogether) :=
  rfl

/-- A run of characters with no blank at its ends and no quote is a word. -/
theorem token?_word {w : List Char} (hn : w ≠ [])
    (htrim : Piece.trim (w.map .char) = w.map .char) (hq : ∀ c ∈ w, isQuote c = false) :
    Piece.token? (w.map .char) = .ok (some (.word (String.ofList w))) := by
  have hquote : (w.map Piece.char).any Piece.isOpenQuote = false := by
    rw [← Piece.any_isQuote_chars, chars_map_char, List.any_eq_false]
    exact fun c hc => ne_true_of_eq_false (hq c hc)
  obtain ⟨c, cs, rfl⟩ := List.exists_cons_of_ne_nil hn
  rw [Piece.token?, htrim, List.map_cons, trimmedToken?_char, ← List.map_cons,
    literals_map_char, hquote, chars_map_char]
  rfl

theorem unmarked_map_char {w : List Char} (h : ∀ c ∈ w, Mark.ofChar? c = none) :
    Unmarked (w.map .char) := by
  intro c hc
  obtain ⟨d, hd, heq⟩ := List.mem_map.1 hc
  cases heq
  exact h c hd

theorem lexesAs_word {w : List Char} (hn : w ≠ []) (hp : ∀ c ∈ w, isPlain c = true) :
    LexesAs w [.word (String.ofList w)] := by
  have hplain : ∀ c ∈ w, Text.isBlank c = false ∧ Mark.ofChar? c = none ∧ isQuote c = false ∧
      c ≠ nul := by
    intro c hc
    simpa [isPlain, and_assoc] using hp c hc
  have hquote : ∀ c ∈ w, isQuote c = false := fun c hc => (hplain c hc).2.2.1
  have htrim : Piece.trim (w.map .char) = w.map .char :=
    trim_eq_self (List.forall_mem_map.2 fun c hc => (hplain c hc).1)
  refine lexesAs_run (ofText_append hquote) (List.forall_mem_map.2 fun c hc => ?_)
    (unmarked_map_char fun c hc => (hplain c hc).2.1) (token?_word hn htrim hquote)
  simpa [Piece.isClean] using (hplain c hc).2.2.2

/-! ### Quoted texts -/

/-- The content of a literal that stands for a text: its quotes have backslashes in front. -/
def escape (q : Char) (cs : List Char) : List Char :=
  cs.flatMap fun c => if c = q then ['\\', c] else [c]

/-- The text ends the literal that it is written in: its quote is not escaped by its last
character, and its line does not end before. -/
structure Quotable (cs : List Char) : Prop where
  noBackslash : cs.getLast? ≠ some '\\'
  noLineFeed  : '\n' ∉ cs

theorem escape_cons (q c : Char) (cs : List Char) :
    escape q (c :: cs) = (if c = q then ['\\', c] else [c]) ++ escape q cs :=
  List.flatMap_cons

theorem Quotable.tail {c : Char} {cs : List Char} (h : Quotable (c :: cs)) : Quotable cs := by
  refine ⟨fun hl => h.noBackslash ?_, fun hm => h.noLineFeed (List.mem_cons_of_mem c hm)⟩
  cases cs with
  | nil => cases hl
  | cons d ds => rwa [List.getLast?_cons_cons]

/-- A literal closes behind its content; a backslash in front matters only to a quote right behind
it. -/
theorem spanLiteral_escape {q : Char} (hq : isQuote q = true) {cs : List Char} (h : Quotable cs)
    {escaped : Bool} (he : cs = [] → escaped = false) (rest : List Char) :
    spanLiteral q escaped (escape q cs ++ q :: rest) = some (escape q cs, rest) := by
  have hbackslash : '\\' ≠ q := by
    rintro rfl
    cases hq
  have hline : q ≠ '\n' := by
    rintro rfl
    cases hq
  induction cs generalizing escaped with
  | nil => simp [escape, spanLiteral, he rfl]
  | cons c cs ih =>
    have hc : c ≠ '\n' := fun hc => h.noLineFeed (hc ▸ List.mem_cons_self)
    rw [escape_cons]
    split
    · -- a quote: the backslash escapes it, and escapes nothing behind it
      rename_i heq
      subst heq
      simp only [List.cons_append, List.nil_append, spanLiteral, hbackslash, hline, decide_true,
        decide_false, Bool.false_and, Bool.not_true, Bool.and_false, Bool.false_eq_true, if_false,
        hbackslash.symm, ih h.tail (fun _ => rfl)]
      simp
    · -- a backslash of the text must have something behind it
      rename_i hne
      have hlast : cs = [] → decide (c = '\\') = false := by
        rintro rfl
        exact decide_eq_false fun hb => h.noBackslash (hb ▸ rfl)
      simp [spanLiteral, hne, hc, ih h.tail hlast]

theorem head?_escape_ne {q : Char} (hq : isQuote q = true) (cs : List Char) :
    (escape q cs).head? ≠ some q := by
  cases cs with
  | nil => simp [escape]
  | cons c cs =>
    rw [escape_cons]
    split
    · simp only [List.cons_append, List.head?_cons, ne_eq, Option.some.injEq]
      rintro rfl
      cases hq
    · simpa using ‹¬c = q›

theorem unescape_escape {q : Char} (hq : isQuote q = true) (cs : List Char) :
    unescape q (escape q cs) = cs := by
  have hbackslash : q ≠ '\\' := by
    rintro rfl
    cases hq
  induction cs with
  | nil => rfl
  | cons c cs ih =>
    rw [escape_cons]
    split
    · rename_i heq
      subst heq
      simp [unescape, hbackslash, ih]
    · simp [unescape, head?_escape_ne hq cs, ih]

/-- A quoted text is read as one literal, whatever characters it holds. -/
theorem lexesAs_quoted {q : Char} (hq : isQuote q = true) {s : String} (h : Quotable s.toList) :
    LexesAs (q :: escape q s.toList ++ [q]) [.literal s] := by
  have hcs (rest : List Char) : Piece.ofText (q :: escape q s.toList ++ [q] ++ rest)
      = [.literal s] ++ Piece.ofText rest := by
    have hspan : spanLiteral q false (escape q s.toList ++ q :: rest)
        = some (escape q s.toList, rest) := spanLiteral_escape hq h (fun _ => rfl) rest
    rw [List.cons_append, List.cons_append, List.append_assoc, List.singleton_append,
      Piece.ofText_literal hq hspan, unescape_escape hq, String.ofList_toList]
    rfl
  exact lexesAs_run hcs (by simp [Piece.isClean]) (by simp [Unmarked]) rfl

/-! ### Parts put together -/

theorem LexesAs.parens {cs : List Char} {ts : List Token} (h : LexesAs cs ts) :
    LexesAs ('(' :: cs ++ [')']) (.mark .opening :: ts ++ [.mark .closing]) := by
  intro m rest us hm
  have := lexes_mark .opening (h .closing _ _ (lexes_mark .closing hm))
  simpa [Mark.char] using this

theorem LexesAs.keyed {cs key : List Char} {ts : List Token} (hn : key ≠ [])
    (hk : ∀ c ∈ key, isPlain c = true) (h : LexesAs cs ts) :
    LexesAs (key ++ ':' :: ' ' :: cs) (.word (String.ofList key) :: .mark .colon :: ts) := by
  intro m rest us hm
  have := lexesAs_word hn hk .colon _ _ (lexes_mark .colon (lexes_space (h m rest us hm)))
  simpa [Mark.char] using this

/-- Parts with a comma and a space between them are read one after another. -/
theorem lexesAs_intercalate {css : List (List Char)} {tss : List (List Token)}
    (h : List.Forall₂ LexesAs css tss) :
    LexesAs ([',', ' '].intercalate css) ([.mark .comma].intercalate tss) := by
  intro m rest us hm
  induction h with
  | nil => exact hm
  | cons hx hxs ih =>
    cases hxs with
    | nil => simpa using hx m rest us hm
    | cons hy hys =>
      have := hx .comma _ _ (lexes_mark .comma (lexes_space ih))
      simpa [Mark.char] using this

end DocDirective.Arguments
