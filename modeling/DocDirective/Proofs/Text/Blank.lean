import DocDirective.Text.Blank
import Mathlib.Data.List.DropRight

/-!
# Proofs — Text — Blank

What trimming does to a text that is built up at either end.
-/

namespace DocDirective.Text

/-! ### The start -/

theorem trimStart_cons_blank {c : Char} (cs : List Char) (h : isBlank c = true) :
    trimStart (c :: cs) = trimStart cs :=
  List.dropWhile_cons_of_pos h

theorem trimStart_cons {c : Char} (cs : List Char) (h : isBlank c = false) :
    trimStart (c :: cs) = c :: cs :=
  List.dropWhile_cons_of_neg (by simp [h])

theorem trim_cons_blank {c : Char} (cs : List Char) (h : isBlank c = true) :
    trim (c :: cs) = trim cs :=
  congrArg trimEnd (trimStart_cons_blank cs h)

/-! ### The end -/

theorem trimEnd_concat (cs : List Char) (c : Char) :
    trimEnd (cs ++ [c]) = if isBlank c then trimEnd cs else cs ++ [c] :=
  List.rdropWhile_concat ..

theorem trimEnd_append_blank (cs : List Char) {ws : List Char} (h : ∀ c ∈ ws, isBlank c = true) :
    trimEnd (cs ++ ws) = trimEnd cs := by
  unfold trimEnd
  rw [List.reverse_append, List.dropWhile_append_of_pos]
  exact fun c hc => h c (List.mem_reverse.1 hc)

theorem trimEnd_cons (c : Char) (cs : List Char) :
    trimEnd (c :: cs) = if (trimEnd cs).isEmpty && isBlank c then [] else c :: trimEnd cs := by
  unfold trimEnd
  rw [List.reverse_cons, List.dropWhile_append]
  cases hd : cs.reverse.dropWhile isBlank with
  | nil => cases hc : isBlank c <;> simp [hc]
  | cons a as => simp

theorem trimEnd_of_blank {ws : List Char} (h : ∀ c ∈ ws, isBlank c = true) : trimEnd ws = [] :=
  trimEnd_append_blank [] h

/-- Nothing in front of a character that is not blank belongs to the end. -/
theorem trimEnd_append_cons (cs : List Char) {c : Char} (hc : isBlank c = false)
    (ds : List Char) : trimEnd (cs ++ c :: ds) = cs ++ c :: trimEnd ds := by
  induction cs with
  | nil => rw [List.nil_append, trimEnd_cons, hc, Bool.and_false, if_neg (by simp), List.nil_append]
  | cons a cs ih => rw [List.cons_append, trimEnd_cons, ih, if_neg (by simp), List.cons_append]

/-- The end of a text with one character more in front depends on the end of the text only. -/
theorem trimEnd_cons_congr (c : Char) {cs ds : List Char} (h : trimEnd cs = trimEnd ds) :
    trimEnd (c :: cs) = trimEnd (c :: ds) := by
  rw [trimEnd_cons, trimEnd_cons, h]

/-- Either end may be trimmed first. -/
theorem trimEnd_trimStart (cs : List Char) : trimEnd (trimStart cs) = trimStart (trimEnd cs) := by
  induction cs with
  | nil => rfl
  | cons c cs ih =>
    rw [trimEnd_cons]
    cases hc : isBlank c with
    | true =>
      rw [trimStart_cons_blank cs hc, ih, Bool.and_true]
      split
      · rename_i he
        rw [List.isEmpty_iff.1 he]
      · rw [trimStart_cons_blank _ hc]
    | false =>
      rw [trimStart_cons cs hc, trimEnd_cons, hc, Bool.and_false, if_neg (by simp),
        trimStart_cons _ hc]

theorem trim_trim (cs : List Char) : trim (trim cs) = trim cs := by
  have hstart : trimStart (trimStart cs) = trimStart cs := List.dropWhile_idempotent ..
  have hend (ds : List Char) : trimEnd (trimEnd ds) = trimEnd ds := List.rdropWhile_idempotent ..
  rw [trim, trim, ← trimEnd_trimStart, hstart, hend]

/-- Texts that end alike are trimmed alike. -/
theorem trim_congr {cs ds : List Char} (h : trimEnd cs = trimEnd ds) : trim cs = trim ds := by
  rw [trim, trim, trimEnd_trimStart, trimEnd_trimStart, h]

/-! ### What is left -/

theorem all_isBlank_trimStart (cs : List Char) : (trimStart cs).all isBlank = cs.all isBlank := by
  induction cs with
  | nil => rfl
  | cons c cs ih =>
    cases hc : isBlank c with
    | true  => rw [trimStart_cons_blank cs hc, ih, List.all_cons, hc, Bool.true_and]
    | false => rw [trimStart_cons cs hc]

theorem all_isBlank_trimEnd (cs : List Char) : (trimEnd cs).all isBlank = cs.all isBlank := by
  have hstart := all_isBlank_trimStart cs.reverse
  rwa [List.all_reverse, trimStart, ← List.all_reverse] at hstart

/-- A text whose blanks are taken off both ends is blank if it was. -/
theorem isBlankText_trimmed (s : String) : isBlankText (trimmed s) = isBlankText s := by
  rw [isBlankText, trimmed, String.toList_ofList, trim, all_isBlank_trimEnd,
    all_isBlank_trimStart, isBlankText]

/-- A text with something in it and no blanks around that. -/
structure Tidy (s : String) : Prop where
  notBlank : isBlankText s = false
  trimmed  : Text.trimmed s = s

theorem tidy_trimmed {s : String} (h : isBlankText s = false) : Tidy (Text.trimmed s) where
  notBlank := (isBlankText_trimmed s).trans h
  trimmed  := by rw [Text.trimmed, Text.trimmed, String.toList_ofList, trim_trim]

end DocDirective.Text
