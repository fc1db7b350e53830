import DocDirective.Proofs.Arguments.Grammar
import DocDirective.Proofs.Arguments.Rendering

/-!
# Proofs — Arguments — Written

What is written reads back.  Reading the tokens of a written value gives the value, so a written
list of arguments reads as the parameters that it was written for.
-/

namespace DocDirective.Arguments

/-! ### The values of tokens -/

/-- The token of the value has the value. -/
def IsScalar (v : Value) : Prop := atomValue (scalarToken v) = .ok v

theorem isScalar_of_renderValue {v : Value} {r : String} (hv : v.isList = false)
    (h : renderValue v = .ok r) : IsScalar v := by
  rw [renderValue_scalar hv] at h
  exact (lexesAs_renderScalar h).2

theorem isScalar_of_mem {vs : List Value} {r : String} (h : renderValue (.list vs) = .ok r) :
    ∀ v ∈ vs, IsScalar v := by
  intro v hv
  obtain ⟨rs, hm, -⟩ := renderItems_of_renderValue h
  obtain ⟨t, ht⟩ := exists_of_mapM hm hv
  exact (lexesAs_renderScalar (renderItem_eq ht)).2

theorem scalarToken_ne_mark (v : Value) (m : Mark) : scalarToken v ≠ .mark m := by
  cases v <;> simp [scalarToken]

theorem items_intercalate {vs : List Value} (h : ∀ v ∈ vs, IsScalar v) (rest : List Token) :
    items ([.mark .comma].intercalate (vs.map fun v => [scalarToken v]) ++ .mark .closing :: rest)
      = .ok (vs, rest) := by
  induction vs with
  | nil => rw [List.map_nil, List.intercalate_nil, List.nil_append, items]
  | cons v vs ih =>
    rw [List.forall_mem_cons] at h
    cases vs with
    | nil => simpa using items_last h.1 rest
    | cons w ws => simpa using items_more h.1 (ih h.2)

/-- The tokens of a value are read as the value, whatever stands behind them. -/
theorem topValue_valueTokens {v : Value} {r : String} (h : renderValue v = .ok r)
    (rest : List Token) : topValue (valueTokens v ++ rest) = .ok (v, rest) := by
  obtain ⟨vs, rfl⟩ | hv := isList_cases v
  · have hitems := items_intercalate (isScalar_of_mem h) rest
    simp only [valueTokens, List.cons_append, List.append_assoc, List.nil_append, topValue,
      hitems]
    rfl
  · rw [valueTokens_scalar hv]
    exact topValue_atom (isScalar_of_renderValue hv h) rest

/-! ### Entries -/

/-- The value of the entry can be written, and so can its key, if it has one. -/
structure Entry.Written (e : Entry) : Prop where
  value : ∃ r, renderValue e.value = .ok r
  key   : ∀ k ∈ e.key?, Text.lowered k = k

theorem splitKey_valueTokens (v : Value) {m : Mark} (hm : m ≠ .colon) (rest : List Token) :
    splitKey (valueTokens v ++ .mark m :: rest) = (none, valueTokens v ++ .mark m :: rest) := by
  obtain ⟨vs, rfl⟩ | hv := isList_cases v
  · rfl
  · rw [valueTokens_scalar hv]
    cases v <;> cases m <;> first | rfl | exact absurd rfl hm

theorem entry_entryTokens {e : Entry} (h : e.Written) {m : Mark} (hm : m ≠ .colon)
    (rest : List Token) : entry (entryTokens e ++ .mark m :: rest) = .ok (e, .mark m :: rest) := by
  obtain ⟨key?, v⟩ := e
  obtain ⟨⟨r, hr⟩, hkey⟩ := h
  have hv := topValue_valueTokens hr (.mark m :: rest)
  unfold entry
  cases key? with
  | none =>
    simp only [entryTokens, splitKey_valueTokens v hm, hv]
    rfl
  | some k =>
    simp only [entryTokens, List.cons_append, splitKey, hv, hkey k rfl]
    rfl

theorem exists_entryTokens_cons (e : Entry) :
    ∃ t ts, entryTokens e = t :: ts ∧ t ≠ .mark .closing := by
  obtain ⟨key?, v⟩ := e
  cases key? with
  | some k => exact ⟨_, _, rfl, by simp⟩
  | none =>
    obtain ⟨vs, rfl⟩ | hv := isList_cases v
    · exact ⟨_, _, rfl, by simp⟩
    · exact ⟨_, _, valueTokens_scalar hv, scalarToken_ne_mark v .closing⟩

theorem entries_intercalate {es : List Entry} (h : ∀ e ∈ es, e.Written) (rest : List Token) :
    entries ([.mark .comma].intercalate (es.map entryTokens) ++ .mark .closing :: rest)
      = .ok (es, rest) := by
  induction es with
  | nil => rw [List.map_nil, List.intercalate_nil, List.nil_append, entries]
  | cons e es ih =>
    rw [List.forall_mem_cons] at h
    obtain ⟨t, ts, hts, ht⟩ := exists_entryTokens_cons e
    -- an entry does not look like the end of the list
    have hne (us : List Token) : ∀ rest, entryTokens e ++ us ≠ .mark .closing :: rest := by
      intro rest heq
      rw [hts] at heq
      cases heq
      exact ht rfl
    cases es with
    | nil =>
      have := entries_last (hne _) (entry_entryTokens h.1 (m := .closing) (by decide) rest)
      simpa using this
    | cons f fs =>
      have := entries_more (hne _) (entry_entryTokens h.1 (m := .comma) (by decide) _) (ih h.2)
      simpa using this

/-- The tokens of a whole list of arguments. -/
def listTokens (es : List Entry) : List Token :=
  .mark .opening :: [.mark .comma].intercalate (es.map entryTokens) ++ [.mark .closing]

theorem parse_listTokens {es : List Entry} (h : ∀ e ∈ es, e.Written) :
    parse (listTokens es) = .ok es := by
  have hes := entries_intercalate h []
  simp only [listTokens, List.cons_append, parse, hes]
  rfl

/-! ### Parameters -/

/-- The entries of values, then of values under keys. -/
def entriesOf (positional : List Value) (keyed : Keyed Value) : List Entry :=
  positional.map (⟨none, ·⟩) ++ keyed.entries.map fun e => ⟨some e.1, e.2⟩

theorem foldl_add (vs : List Value) (p : Parameters) :
    vs.foldl Parameters.add p = { p with positional := p.positional ++ vs } := by
  induction vs generalizing p with
  | nil => simp
  | cons v vs ih => simp [ih, Parameters.add]

theorem foldl_set {es : List (String × Value)} (h : ∀ e ∈ es, Text.lowered e.1 = e.1)
    (p : Parameters) :
    es.foldl (fun p e => p.set e.1 e.2) p = { p with keyed := p.keyed.insertAll es } := by
  induction es generalizing p with
  | nil => rfl
  | cons e es ih =>
    rw [List.forall_mem_cons] at h
    rw [List.foldl_cons, ih h.2, Parameters.set, h.1]
    rfl

/-- The entries of parameters give the parameters. -/
theorem collect_entriesOf (positional : List Value) {keyed : Keyed Value}
    (h : ∀ e ∈ keyed.entries, e.1 ≠ "" ∧ Text.lowered e.1 = e.1) :
    collect (entriesOf positional keyed) = ⟨positional, keyed⟩ := by
  -- no key is empty, so none of the values is taken for one without a key
  have hset (p : Parameters) : keyed.entries.foldl
        (fun p e => if e.1.isEmpty then p.add e.2 else p.set e.1 e.2) p
      = keyed.entries.foldl (fun p e => p.set e.1 e.2) p := by
    refine List.foldl_ext _ _ _ fun p e he => if_neg ?_
    simpa using (h e he).1
  have hkeyed : Keyed.empty.insertAll keyed.entries = keyed := Keyed.ofList_entries keyed
  rw [collect, entriesOf, List.foldl_append, List.foldl_map, List.foldl_map]
  simp only
  rw [foldl_add, hset, foldl_set fun e he => (h e he).2]
  simp [Parameters.empty, hkeyed]

/-! ### Written arguments -/

/-- A directive is written as its mark, its name and the texts of its values. -/
theorem render_eq {name : String} {positional : List Value} {keyed : Keyed Value} {r : String}
    (h : render name positional keyed = .ok r) :
    ∃ ps ks, positional.mapM renderValue = .ok ps ∧ keyed.entries.mapM renderKeyed = .ok ks ∧
      r = if (ps ++ ks).isEmpty then "!" ++ name
        else "!" ++ name ++ " " ++ ", ".intercalate (ps ++ ks) := by
  unfold render at h
  cases hp : positional.mapM renderValue with
  | error e => rw [hp] at h; cases h
  | ok ps =>
    cases hk : keyed.entries.mapM renderKeyed with
    | error e => rw [hp, hk] at h; cases h
    | ok ks =>
      rw [hp, hk] at h
      cases h
      exact ⟨ps, ks, rfl, rfl, rfl⟩

/-- **Written arguments read back**: their text stands for the values that it was written for,
under the same keys and in the same order. -/
theorem evaluate_intercalate {positional : List Value} {keyed : Keyed Value} {ps ks : List String}
    (hp : positional.mapM renderValue = .ok ps) (hk : keyed.entries.mapM renderKeyed = .ok ks)
    (hn : (", ".intercalate (ps ++ ks)).length + 2 ≤ 10 ^ Overlong.limit) :
    evaluate (", ".intercalate (ps ++ ks)) = .ok ⟨positional, keyed⟩ := by
  have hkeys : ∀ e ∈ keyed.entries, e.1 ≠ "" ∧ Text.lowered e.1 = e.1 ∧
      ∃ t, renderValue e.2 = .ok t := by
    intro e he
    obtain ⟨r, hr⟩ := exists_of_mapM hk he
    obtain ⟨hkey, hlower, t, ht, -⟩ := renderKeyed_eq hr
    refine ⟨fun hnil => (isPlain_of_isKey hkey).1 ?_, hlower, t, ht⟩
    rw [hnil]
    rfl
  have hwritten : ∀ e ∈ entriesOf positional keyed, e.Written := by
    intro e he
    rcases List.mem_append.1 he with he | he
    · obtain ⟨v, hv, rfl⟩ := List.mem_map.1 he
      exact ⟨exists_of_mapM hp hv, by simp⟩
    · obtain ⟨e, hke, rfl⟩ := List.mem_map.1 he
      exact ⟨(hkeys e hke).2.2, by simpa using (hkeys e hke).2.1⟩
  -- part by part, the text gives the tokens of the entries
  have hparts : List.Forall₂ LexesAs ((ps ++ ks).map String.toList)
      ((entriesOf positional keyed).map entryTokens) := by
    rw [List.map_append, entriesOf, List.map_append, List.map_map, List.map_map]
    exact List.rel_append (forall₂_lexesAs (fun _ _ => lexesAs_renderValue) hp)
      (forall₂_lexesAs (fun _ _ => lexesAs_renderKeyed) hk)
  have htokens : Token.ofText (", ".intercalate (ps ++ ks))
      = .ok (listTokens (entriesOf positional keyed)) := by
    refine Lexes.ofText ?_ hn
    have hlist := lexes_mark .opening
      (lexesAs_intercalate hparts .closing [] [] (lexes_mark .closing lexes_nil))
    rwa [String.toList_intercalate]
  unfold evaluate
  simp only [htokens, parse_listTokens hwritten, bind, Except.bind]
  rw [← collect_entriesOf positional fun e he => ⟨(hkeys e he).1, (hkeys e he).2.1⟩]
  rfl

end DocDirective.Arguments
