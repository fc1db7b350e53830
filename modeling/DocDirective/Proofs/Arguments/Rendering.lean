import DocDirective.Proofs.Arguments.Word

/-!
# Proofs — Arguments — Rendering

The tokens of what is written.  Every value that can be written has tokens of its own, and its text
gives those tokens; so do the keys in front of values.
-/

namespace DocDirective.Arguments

/-! ### Tokens -/

/-- The token that a value other than a list is written as. -/
def scalarToken : Value → Token
  | .bool b  => .word (if b then "true" else "false")
  | .int n   => .word (String.ofList (Numeral.intChars n))
  | .float x => .word x.text
  | .text s  => .literal s
  | .null    => .literal ""
  | .list _  => .literal ""
  | .map _   => .literal ""

/-- The tokens that a value is written as. -/
def valueTokens : Value → List Token
  | .list vs =>
    .mark .opening :: [.mark .comma].intercalate (vs.map fun v => [scalarToken v]) ++
      [.mark .closing]
  | v        => [scalarToken v]

/-- The tokens that a value and its key, if it has one, are written as. -/
def entryTokens (e : Entry) : List Token :=
  match e.key? with
  | some k => .word k :: .mark .colon :: valueTokens e.value
  | none   => valueTokens e.value

/-! ### The text of a value -/

theorem refuse_ne_ok (v : Value) (r : String) : refuse v ≠ .ok r := by
  unfold refuse
  split <;> simp

theorem lexesAs_number {w : String} (hn : w.toList ≠ [])
    (hw : ∀ c ∈ w.toList, c ∈ numberParts) : LexesAs w.toList [.word w] := by
  simpa using lexesAs_word hn fun c hc => isPlain_of_mem_numberParts (hw c hc)

/-- What a text that can be written holds, and what it is written as. -/
theorem renderScalar_text {s r : String} (h : renderScalar (.text s) = .ok r) :
    s.toList.getLast? ≠ some '\\' ∧ (∀ c ∈ s.toList, c ≠ '\n' ∧ c ≠ '\r') ∧
      hasTerminator s.toList = false ∧ r = quote s := by
  simp only [renderScalar] at h
  split_ifs at h with hlast hends
  cases h
  rw [Bool.not_eq_true, Bool.or_eq_false_iff] at hends
  refine ⟨hlast, fun c hc => ?_, hends.2, rfl⟩
  simpa using List.any_eq_false.1 hends.1 c hc

theorem renderScalar_int {n : Int} {r : String} (h : renderScalar (.int n) = .ok r) :
    Numeral.intText n = .ok r := by
  simp only [renderScalar] at h
  split at h
  · cases h
    assumption
  · cases h

theorem renderScalar_float {x : Binary64} {r : String} (h : renderScalar (.float x) = .ok r) :
    x.isFinite = true ∧ r = x.text := by
  simp only [renderScalar] at h
  split_ifs at h with hx
  cases h
  exact ⟨hx, rfl⟩

/-- A value that is not a list reads back from what it is written as. -/
theorem lexesAs_renderScalar {v : Value} {r : String} (h : renderScalar v = .ok r) :
    LexesAs r.toList [scalarToken v] ∧ atomValue (scalarToken v) = .ok v := by
  cases v with
  | bool b =>
    cases h
    refine ⟨?_, wordValue_bool b⟩
    cases b <;> exact lexesAs_word (by decide) (List.all_eq_true.1 (by decide))
  | int n =>
    have ht := renderScalar_int h
    have hs : scalarToken (.int n) = .word r := by
      rw [scalarToken, ← Numeral.toList_of_intText ht, String.ofList_toList]
    rw [hs]
    exact ⟨lexesAs_number (Numeral.toList_ne_nil_of_intText ht) (mem_numberParts_of_intText ht),
      wordValue_int ht⟩
  | float x =>
    obtain ⟨hx, rfl⟩ := renderScalar_float h
    exact ⟨lexesAs_number x.toList_text_ne_nil (mem_numberParts_of_text hx),
      wordValue_float hx⟩
  | text s =>
    obtain ⟨hlast, hline, -, rfl⟩ := renderScalar_text h
    refine ⟨?_, rfl⟩
    rw [quote, String.toList_ofList]
    exact lexesAs_quoted (by decide) ⟨hlast, fun hm => (hline _ hm).1 rfl⟩
  | null => exact absurd h (refuse_ne_ok .null r)
  | list vs => exact absurd h (refuse_ne_ok (.list vs) r)
  | map es => exact absurd h (refuse_ne_ok (.map es) r)

theorem renderItem_eq {v : Value} {r : String} (h : renderItem v = .ok r) :
    renderScalar v = .ok r := by
  unfold renderItem at h
  split at h
  · cases h
  · exact h

/-- Texts that are written one by one are read one by one. -/
theorem forall₂_lexesAs {α ε : Type} {f : α → Except ε String} {g : α → List Token}
    (hf : ∀ x r, f x = .ok r → LexesAs r.toList (g x)) {xs : List α} {rs : List String}
    (h : xs.mapM f = .ok rs) : List.Forall₂ LexesAs (rs.map String.toList) (xs.map g) := by
  rw [List.forall₂_map_left_iff, List.forall₂_map_right_iff]
  exact (forall₂_of_mapM h).flip.imp fun r x hr => hf x r hr

theorem isList_cases (v : Value) : (∃ vs, v = .list vs) ∨ v.isList = false := by
  cases v with
  | list vs => exact .inl ⟨vs, rfl⟩
  | _ => exact .inr rfl

theorem renderValue_scalar {v : Value} (h : v.isList = false) : renderValue v = renderScalar v := by
  cases v with
  | list vs => cases h
  | _ => rfl

theorem valueTokens_scalar {v : Value} (h : v.isList = false) :
    valueTokens v = [scalarToken v] := by
  cases v with
  | list vs => cases h
  | _ => rfl

theorem renderItems_of_renderValue {vs : List Value} {r : String}
    (h : renderValue (.list vs) = .ok r) :
    ∃ rs, vs.mapM renderItem = .ok rs ∧ r = "(" ++ ", ".intercalate rs ++ ")" := by
  simp only [renderValue] at h
  cases hm : vs.mapM renderItem with
  | error e => rw [hm] at h; cases h
  | ok rs =>
    rw [hm] at h
    cases h
    exact ⟨rs, rfl, rfl⟩

/-- A value is read as its tokens from what it is written as. -/
theorem lexesAs_renderValue {v : Value} {r : String} (h : renderValue v = .ok r) :
    LexesAs r.toList (valueTokens v) := by
  obtain ⟨vs, rfl⟩ | hv := isList_cases v
  · obtain ⟨rs, hm, rfl⟩ := renderItems_of_renderValue h
    have hitems := lexesAs_intercalate <| forall₂_lexesAs (g := fun v => [scalarToken v])
      (fun _ _ hv => (lexesAs_renderScalar (renderItem_eq hv)).1) hm
    simpa [valueTokens] using hitems.parens
  · rw [renderValue_scalar hv] at h
    rw [valueTokens_scalar hv]
    exact (lexesAs_renderScalar h).1

/-- What a key that can be written holds, and what it is written as. -/
theorem renderKeyed_eq {e : String × Value} {r : String} (h : renderKeyed e = .ok r) :
    isKey e.1.toList = true ∧ Text.lowered e.1 = e.1 ∧
      ∃ t, renderValue e.2 = .ok t ∧ r = e.1 ++ ": " ++ t := by
  unfold renderKeyed at h
  split_ifs at h with hkey hlower
  cases hv : renderValue e.2 with
  | error e => rw [hv] at h; cases h
  | ok t =>
    rw [hv] at h
    cases h
    exact ⟨by simpa using hkey, (not_not.1 hlower).symm, t, rfl, rfl⟩

theorem lexesAs_renderKeyed {e : String × Value} {r : String} (h : renderKeyed e = .ok r) :
    LexesAs r.toList (entryTokens ⟨some e.1, e.2⟩) := by
  obtain ⟨hkey, -, t, ht, rfl⟩ := renderKeyed_eq h
  obtain ⟨hn, hplain⟩ := isPlain_of_isKey hkey
  simpa [entryTokens] using (lexesAs_renderValue ht).keyed hn hplain

end DocDirective.Arguments
