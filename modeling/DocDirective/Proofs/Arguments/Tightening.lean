import DocDirective.Arguments.Token
import DocDirective.Proofs.Text.Blank
import Mathlib.Tactic.SplitIfs

/-!
# Proofs — Arguments — Tightening

Dropping the blanks on either side of the marks changes no token: it takes blanks from the ends of
runs only, and the ends of runs are trimmed anyway.
-/

namespace DocDirective.Arguments

theorem Mark.ofChar?_eq_none {c : Char} (h : ∀ m : Mark, c ≠ m.char) : Mark.ofChar? c = none := by
  unfold Mark.ofChar?
  split_ifs with h₁ h₂ h₃ h₄
  · exact absurd h₁ (h .opening)
  · exact absurd h₂ (h .closing)
  · exact absurd h₃ (h .comma)
  · exact absurd h₄ (h .colon)
  · rfl

theorem Mark.ofChar?_of_blank {c : Char} (h : Text.isBlank c = true) : Mark.ofChar? c = none := by
  refine Mark.ofChar?_eq_none ?_
  rintro m rfl
  cases m <;> exact absurd h (by decide)

theorem cut_mark {c : Char} {m : Mark} (cs : List Char) (h : Mark.ofChar? c = some m) :
    cut (c :: cs) = ([], (m, (cut cs).1) :: (cut cs).2) := by
  rw [cut, h]

theorem cut_plain {c : Char} (cs : List Char) (h : Mark.ofChar? c = none) :
    cut (c :: cs) = (c :: (cut cs).1, (cut cs).2) := by
  rw [cut, h]

theorem isBlank_of_markFollows {cs : List Char} (h : markFollows cs = true) :
    ∀ c ∈ (cut cs).1, Text.isBlank c = true := by
  induction cs with
  | nil => simp [markFollows] at h
  | cons c cs ih =>
    unfold markFollows at h
    cases hc : Text.isBlank c with
    | true =>
      rw [List.dropWhile_cons_of_pos hc] at h
      rw [cut_plain cs (Mark.ofChar?_of_blank hc)]
      intro d hd
      rcases List.mem_cons.1 hd with rfl | hd
      · exact hc
      · exact ih h d hd
    | false =>
      rw [List.dropWhile_cons_of_neg (by simp [hc])] at h
      obtain ⟨m, hm⟩ := Option.isSome_iff_exists.1 h
      rw [cut_mark cs hm]
      simp

/-- First runs of one text: behind a mark they are trimmed alike, at the start they end alike. -/
def SameFirst (afterMark : Bool) (r s : List Char) : Prop :=
  if afterMark then Text.trim r = Text.trim s else Text.trimEnd r = Text.trimEnd s

theorem SameFirst.trim {afterMark : Bool} {r s : List Char} (h : SameFirst afterMark r s) :
    Text.trim r = Text.trim s := by
  cases afterMark with
  | true => exact h
  | false => exact Text.trim_congr h

theorem sameFirst_of_trimEnd (afterMark : Bool) {r s : List Char}
    (h : Text.trimEnd r = Text.trimEnd s) : SameFirst afterMark r s := by
  cases afterMark with
  | true => exact Text.trim_congr h
  | false => exact h

/-- The trimmed runs behind their marks. -/
def trimmedRuns (rs : List (Mark × List Char)) : List (Mark × List Char) :=
  rs.map fun r => (r.1, Text.trim r.2)

/-- Dropping the blanks around marks leaves in every run the text inside its blanks. -/
theorem cut_tighten (cs : List Char) (afterMark : Bool) :
    SameFirst afterMark (cut (tighten afterMark cs)).1 (cut cs).1 ∧
      trimmedRuns (cut (tighten afterMark cs)).2 = trimmedRuns (cut cs).2 := by
  induction cs generalizing afterMark with
  | nil => exact ⟨sameFirst_of_trimEnd _ rfl, rfl⟩
  | cons c cs ih =>
    rw [tighten]
    split
    · -- a blank that is dropped
      rename_i hdrop
      rw [Bool.and_eq_true] at hdrop
      obtain ⟨hfirst, hruns⟩ := ih afterMark
      rw [cut_plain cs (Mark.ofChar?_of_blank hdrop.1)]
      refine ⟨?_, hruns⟩
      cases afterMark with
      | true => exact hfirst.trans (Text.trim_cons_blank _ hdrop.1).symm
      | false =>
        have hblank := isBlank_of_markFollows hdrop.2
        have hall : ∀ d ∈ c :: (cut cs).1, Text.isBlank d = true :=
          List.forall_mem_cons.2 ⟨hdrop.1, hblank⟩
        exact hfirst.trans ((Text.trimEnd_of_blank hblank).trans (Text.trimEnd_of_blank hall).symm)
    · cases hm : Mark.ofChar? c with
      | some m =>
        -- the run behind a mark may lose blanks at its start too
        obtain ⟨hfirst, hruns⟩ := ih true
        rw [cut_mark _ hm, cut_mark _ hm]
        refine ⟨sameFirst_of_trimEnd _ rfl, ?_⟩
        exact congrArg₂ List.cons (congrArg (Prod.mk m) hfirst.trim) hruns
      | none =>
        -- a character of a run: what follows it can only end the run differently
        obtain ⟨hfirst, hruns⟩ := ih false
        rw [cut_plain _ hm, cut_plain _ hm]
        exact ⟨sameFirst_of_trimEnd _ (Text.trimEnd_cons_congr c hfirst), hruns⟩

theorem Token.ofRun?_congr (literals : List String) {r s : List Char}
    (h : Text.trim r = Text.trim s) : Token.ofRun? literals r = Token.ofRun? literals s := by
  unfold Token.ofRun?
  rw [h]

theorem Token.ofRuns_congr (literals : List String) {rs ss : List (Mark × List Char)}
    (h : trimmedRuns rs = trimmedRuns ss) :
    Token.ofRuns literals rs = Token.ofRuns literals ss := by
  induction rs generalizing ss with
  | nil =>
    cases ss with
    | nil => rfl
    | cons s ss => simp [trimmedRuns] at h
  | cons r rs ih =>
    cases ss with
    | nil => simp [trimmedRuns] at h
    | cons s ss =>
      simp only [trimmedRuns, List.map_cons, List.cons.injEq, Prod.mk.injEq] at h
      obtain ⟨⟨hm, hr⟩, hrest⟩ := h
      rw [ofRuns, ofRuns, hm, Token.ofRun?_congr literals hr, ih hrest]

/-- Dropping the blanks around marks makes no difference to the tokens. -/
theorem Token.ofMasked_eq (m : Masked) :
    Token.ofMasked m = (do
      let t ← ofRun? m.literals (cut m.text).1
      let ts ← ofRuns m.literals (cut m.text).2
      return t.toList ++ ts) := by
  obtain ⟨hfirst, hruns⟩ := cut_tighten m.text false
  rw [ofMasked, Token.ofRun?_congr m.literals hfirst.trim, Token.ofRuns_congr m.literals hruns]

end DocDirective.Arguments
