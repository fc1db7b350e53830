import DocDirective.Proofs.Arguments.Masking
import DocDirective.Proofs.Arguments.Values

/-!
# Proofs — Arguments — Runs

The runs of pieces between marks are read one by one: the tokens of pieces with a mark among them
are those in front of it, the mark, and those behind it (`tokens_append_mark`).  So what holds of a
run without marks holds of all pieces, such as that no quote stands open among pieces that have
tokens (`isOpenQuote_of_tokens`).
-/

namespace DocDirective.Arguments

/-- The pieces hold no mark. -/
def Unmarked (ps : List Piece) : Prop := ∀ c, .char c ∈ ps → Mark.ofChar? c = none

/-- An element of two lists together is one of the first or of the second. -/
theorem append_eq_gap {α : Type} {xs ys before after : List α} {x : α}
    (h : xs ++ ys = before ++ x :: after) :
    (∃ rest, xs = before ++ x :: rest ∧ after = rest ++ ys)
      ∨ ∃ rest, before = xs ++ rest ∧ ys = rest ++ x :: after := by
  obtain ⟨rest, hbefore, hys⟩ | ⟨rest, hxs, hafter⟩ := List.append_eq_append_iff.1 h
  · exact .inr ⟨rest, hbefore, hys⟩
  · cases rest with
    | nil => exact .inr ⟨[], by simpa using hxs.symm, by simpa using hafter.symm⟩
    | cons y rest =>
      rw [List.cons_append, List.cons.injEq] at hafter
      obtain ⟨rfl, htail⟩ := hafter
      exact .inl ⟨rest, hxs, htail⟩

/-! ### Tokens on both sides of a mark -/

namespace Piece

theorem tokensOfRuns_append (rs ss : List (Mark × List Piece)) :
    tokensOfRuns (rs ++ ss) = do
      let ts ← tokensOfRuns rs
      let us ← tokensOfRuns ss
      return ts ++ us := by
  induction rs with
  | nil =>
    rw [List.nil_append]
    cases tokensOfRuns ss <;> rfl
  | cons r rs ih =>
    obtain ⟨m, run⟩ := r
    rw [List.cons_append, tokensOfRuns, tokensOfRuns, ih]
    cases token? run with
    | error f => rfl
    | ok t =>
      cases tokensOfRuns rs with
      | error f => rfl
      | ok ts =>
        cases tokensOfRuns ss with
        | error f => rfl
        | ok us =>
          exact congrArg (fun vs => Except.ok (Token.mark m :: vs)) (List.append_assoc ..).symm

theorem cut_append_mark (ps : List Piece) (m : Mark) (qs : List Piece) :
    cut (ps ++ .char m.char :: qs) = ((cut ps).1, (cut ps).2 ++ (m, (cut qs).1) :: (cut qs).2) := by
  induction ps with
  | nil => simp only [List.nil_append, cut, m.ofChar?_char]
  | cons p ps ih =>
    cases p with
    | literal s => rw [List.cons_append, cut, cut, ih]
    | char c =>
      rw [List.cons_append, cut, cut, ih]
      cases Mark.ofChar? c <;> rfl

/-- What stands on both sides of a mark is read by itself. -/
theorem tokens_append_mark (ps : List Piece) (m : Mark) (qs : List Piece) :
    tokens (ps ++ .char m.char :: qs) = do
      let ts ← tokens ps
      let us ← tokens qs
      return ts ++ .mark m :: us := by
  rw [tokens, cut_append_mark, tokens, tokensOfRuns_append, tokensOfRuns, tokens]
  cases token? (cut ps).1 with
  | error f => rfl
  | ok t =>
    cases tokensOfRuns (cut ps).2 with
    | error f => rfl
    | ok ts =>
      cases token? (cut qs).1 with
      | error f => rfl
      | ok t' =>
        cases tokensOfRuns (cut qs).2 with
        | error f => rfl
        | ok ts' => exact congrArg Except.ok (List.append_assoc ..).symm

theorem tokens_unmarked {run : List Piece} (h : Unmarked run) :
    tokens run = (token? run).map Option.toList := by
  have hcut : cut run = (run, []) := by
    induction run with
    | nil => rfl
    | cons p run ih =>
      have ih := ih fun c hc => h c (List.mem_cons_of_mem p hc)
      cases p with
      | char c => rw [cut, h c List.mem_cons_self, ih]
      | literal s => rw [cut, ih]
  rw [tokens, hcut]
  cases token? run with
  | error f => rfl
  | ok t => exact congrArg Except.ok (List.append_nil _)

theorem mark_char_of_ofChar? {c : Char} {m : Mark} (h : Mark.ofChar? c = some m) : c = m.char := by
  unfold Mark.ofChar? at h
  split_ifs at h with h₁ h₂ h₃ h₄ <;> cases h
  · exact h₁
  · exact h₂
  · exact h₃
  · exact h₄

/-- Pieces hold no mark, or what stands in front of the first one holds none. -/
theorem unmarked_or_first (ps : List Piece) : Unmarked ps
    ∨ ∃ front m back, ps = front ++ .char (Mark.char m) :: back ∧ Unmarked front := by
  have hcons {p : Piece} {qs : List Piece} (hp : ∀ c, p = .char c → Mark.ofChar? c = none)
      (hqs : Unmarked qs) : Unmarked (p :: qs) := by
    intro c hc
    exact (List.mem_cons.1 hc).elim (fun h => hp c h.symm) (hqs c)
  induction ps with
  | nil => exact .inl fun c hc => nomatch hc
  | cons p ps ih =>
    have hsplit (hp : ∀ c, p = .char c → Mark.ofChar? c = none) : Unmarked (p :: ps)
        ∨ ∃ front m back, p :: ps = front ++ .char (Mark.char m) :: back ∧ Unmarked front := by
      obtain hps | ⟨front, m, back, rfl, hfront⟩ := ih
      · exact .inl (hcons hp hps)
      · exact .inr ⟨p :: front, m, back, rfl, hcons hp hfront⟩
    cases p with
    | literal s => exact hsplit fun c hc => nomatch hc
    | char c =>
      cases hm : Mark.ofChar? c with
      | none =>
        refine hsplit fun d hd => ?_
        cases hd
        exact hm
      | some m =>
        obtain rfl := mark_char_of_ofChar? hm
        exact .inr ⟨[], m, ps, rfl, fun c hc => nomatch hc⟩

/-- Pieces hold no mark, or are a run without marks, a mark, and further pieces behind it. -/
theorem induct_marks {motive : List Piece → Prop} (run : ∀ ps, Unmarked ps → motive ps)
    (mark : ∀ front m back, Unmarked front → motive back →
      motive (front ++ .char (Mark.char m) :: back)) (ps : List Piece) : motive ps := by
  induction hn : ps.length using Nat.strong_induction_on generalizing ps with
  | _ n ih =>
    obtain hps | ⟨front, m, back, rfl, hfront⟩ := unmarked_or_first ps
    · exact run ps hps
    · refine mark front m back hfront (ih back.length ?_ back rfl)
      rw [← hn, List.length_append, List.length_cons]
      omega

theorem unmarked_reverse {ps : List Piece} (h : Unmarked ps) : Unmarked ps.reverse :=
  fun c hc => h c (List.mem_reverse.1 hc)

/-- Pieces hold no mark, or what stands behind the last one holds none. -/
theorem unmarked_or_last (ps : List Piece) : Unmarked ps
    ∨ ∃ front m back, ps = front ++ .char (Mark.char m) :: back ∧ Unmarked back := by
  obtain h | ⟨front, m, back, h, hfront⟩ := unmarked_or_first ps.reverse
  · exact .inl (List.reverse_reverse ps ▸ unmarked_reverse h)
  · refine .inr ⟨back.reverse, m, front.reverse, ?_, unmarked_reverse hfront⟩
    rw [← List.reverse_reverse ps, h]
    simp

/-! ### Blanks at the ends -/

theorem unmarked_append {ps qs : List Piece} :
    Unmarked (ps ++ qs) ↔ Unmarked ps ∧ Unmarked qs := by
  simp only [Unmarked, List.mem_append, or_imp, forall_and]

section Blanks

variable {ws : List Piece} (hws : ∀ p ∈ ws, isBlank p = true)

include hws

theorem unmarked_of_blank : Unmarked ws :=
  fun c hc => Mark.ofChar?_of_blank (hws (.char c) hc)

theorem trim_blank_append (ps : List Piece) : trim (ws ++ ps) = trim ps := by
  rw [trim, List.dropWhile_append_of_pos hws, trim]

theorem trim_append_blank (ps : List Piece) : trim (ps ++ ws) = trim ps := by
  have hrev : ∀ p ∈ ws.reverse, isBlank p = true := fun p hp => hws p (List.mem_reverse.1 hp)
  rw [trim, trim, List.dropWhile_append]
  split
  · rename_i hnil
    rw [List.isEmpty_iff.1 hnil, List.dropWhile_eq_nil_iff.2 hws]
  · rw [List.reverse_append, List.dropWhile_append_of_pos hrev]

/-- Blanks in front leave the tokens alone. -/
theorem tokens_blank_append (ps : List Piece) : tokens (ws ++ ps) = tokens ps := by
  have hrun {run : List Piece} (hrun : Unmarked run) : tokens (ws ++ run) = tokens run := by
    rw [tokens_unmarked (unmarked_append.2 ⟨unmarked_of_blank hws, hrun⟩), tokens_unmarked hrun,
      token?, trim_blank_append hws, token?]
  obtain h | ⟨front, m, back, rfl, hfront⟩ := unmarked_or_first ps
  · exact hrun h
  · rw [← List.append_assoc, tokens_append_mark, hrun hfront, tokens_append_mark]

/-- Blanks at the end leave the tokens alone. -/
theorem tokens_append_blank (ps : List Piece) : tokens (ps ++ ws) = tokens ps := by
  have hrun {run : List Piece} (hrun : Unmarked run) : tokens (run ++ ws) = tokens run := by
    rw [tokens_unmarked (unmarked_append.2 ⟨hrun, unmarked_of_blank hws⟩), tokens_unmarked hrun,
      token?, trim_append_blank hws, token?]
  obtain h | ⟨front, m, back, rfl, hback⟩ := unmarked_or_last ps
  · exact hrun h
  · rw [List.append_assoc, List.cons_append, tokens_append_mark, hrun hback, tokens_append_mark]

theorem tokens_blank : tokens ws = .ok [] := by
  rw [← List.append_nil ws, tokens_blank_append hws]
  rfl

end Blanks

/-! ### Open quotes -/

theorem mem_trim {ps : List Piece} {p : Piece} (hp : isBlank p = false) (h : p ∈ ps) :
    p ∈ trim ps := by
  have hdrop {qs : List Piece} (h : p ∈ qs) : p ∈ qs.dropWhile isBlank := by
    rw [← List.takeWhile_append_dropWhile (p := isBlank) (l := qs), List.mem_append] at h
    exact h.resolve_left fun htake => by simp [List.mem_takeWhile_imp htake] at hp
  rw [trim, List.mem_reverse]
  exact hdrop (List.mem_reverse.2 (hdrop h))

theorem isBlank_of_isOpenQuote {p : Piece} (h : isOpenQuote p = true) : isBlank p = false := by
  cases p with
  | literal s => rfl
  | char c =>
    simp only [isOpenQuote, isQuote, Bool.or_eq_true, decide_eq_true_eq] at h
    obtain rfl | rfl := h <;> decide

theorem isQuote_of_isBlank {c : Char} (h : Text.isBlank c = true) :
    Arguments.isQuote c = false := by
  rw [← Bool.not_eq_true]
  exact fun hq => absurd h (ne_true_of_eq_false (isBlank_of_isOpenQuote (p := .char c) hq))

theorem isOpenQuote_of_trimmedToken? {ps : List Piece} {t : Option Token}
    (h : trimmedToken? ps = .ok t) {p : Piece} (hp : p ∈ ps) : isOpenQuote p = false := by
  revert h
  fun_cases trimmedToken? ps with
  | case1 => cases hp
  | case2 s =>
    intro _
    obtain rfl := List.mem_singleton.1 hp
    rfl
  | case3 =>
    intro h
    cases h
  | case4 _ _ _ _ hquote =>
    intro _
    rw [← Bool.not_eq_true]
    exact fun hopen => hquote (List.any_eq_true.2 ⟨p, hp, hopen⟩)
  | case5 =>
    intro h
    cases h

/-- A quote that stands open is no part of a token. -/
theorem isOpenQuote_of_token? {run : List Piece} {t : Option Token} (h : token? run = .ok t)
    {p : Piece} (hp : p ∈ run) : isOpenQuote p = false := by
  rw [← Bool.not_eq_true]
  intro hopen
  have hmem := mem_trim (isBlank_of_isOpenQuote hopen) hp
  exact absurd hopen (ne_true_of_eq_false (isOpenQuote_of_trimmedToken? h hmem))

theorem isOpenQuote_of_tokens {ps : List Piece} {ts : List Token} (h : tokens ps = .ok ts)
    {p : Piece} (hp : p ∈ ps) : isOpenQuote p = false := by
  have hrun {run : List Piece} {us : List Token} (hrun : Unmarked run) (h : tokens run = .ok us)
      (hp : p ∈ run) : isOpenQuote p = false := by
    rw [tokens_unmarked hrun] at h
    cases ht : token? run with
    | error f =>
      rw [ht] at h
      cases h
    | ok t => exact isOpenQuote_of_token? ht hp
  induction ps using induct_marks generalizing ts with
  | run ps hps => exact hrun hps h hp
  | mark front m back hfront ih =>
    rw [tokens_append_mark] at h
    obtain ⟨us, hus, h⟩ := exists_of_bind h
    obtain ⟨vs, hvs, -⟩ := exists_of_bind h
    rcases List.mem_append.1 hp with hp | hp
    · exact hrun hfront hus hp
    · rcases List.mem_cons.1 hp with rfl | hp
      · cases m <;> rfl
      · exact ih hvs hp

end Piece

end DocDirective.Arguments
