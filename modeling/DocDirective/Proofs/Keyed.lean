import DocDirective.Keyed
import Mathlib.Data.List.Induction
import Mathlib.Logic.Basic

/-!
# Proofs — Keyed

Writing entries under keys that are not there yet appends them, so a table is what its own entries
give when they are written one after another.  Of any entries, a key keeps its first place and its
last value; and so it does when one table is written into another.
-/

namespace DocDirective.Keyed

variable {α : Type}

theorem assign_of_not_mem {key : String} (value : α) {es : List (String × α)}
    (h : key ∉ es.map (·.1)) : assign key value es = es ++ [(key, value)] := by
  induction es with
  | nil => rfl
  | cons e es ih =>
    rw [List.map_cons, List.mem_cons, not_or] at h
    rw [assign, if_neg (Ne.symm h.1), ih h.2]
    rfl

theorem assign_append {key : String} (value old : α) {before after : List (String × α)}
    (h : key ∉ before.map (·.1)) :
    assign key value (before ++ (key, old) :: after) = before ++ (key, value) :: after := by
  induction before with
  | nil => rw [List.nil_append, assign, if_pos rfl, List.nil_append]
  | cons e before ih =>
    rw [List.map_cons, List.mem_cons, not_or] at h
    rw [List.cons_append, assign, if_neg (Ne.symm h.1), ih h.2]
    rfl

/-- A key that is there keeps its place. -/
theorem entries_insert_of_eq {t : Keyed α} {key : String} {value old : α}
    {before after : List (String × α)} (h : t.entries = before ++ (key, old) :: after) :
    (t.insert key value).entries = before ++ (key, value) :: after := by
  have hn := t.nodup
  rw [h, List.map_append, List.map_cons, List.nodup_append] at hn
  show assign key value t.entries = _
  rw [h]
  exact assign_append value old fun hm => hn.2.2 _ hm _ List.mem_cons_self rfl

/-- Writing under another key leaves a value where it is, whatever it is. -/
theorem assign_gap {key k : String} (h : k ≠ key) (value : α) (before after : List (String × α)) :
    ∃ front back, ∀ v, assign key value (before ++ (k, v) :: after) = front ++ (k, v) :: back := by
  induction before with
  | nil => exact ⟨[], assign key value after, fun v => if_neg h⟩
  | cons e before ih =>
    obtain ⟨front, back, ih⟩ := ih
    by_cases he : e.1 = key
    · exact ⟨(key, value) :: before, after, fun v => if_pos he⟩
    · exact ⟨e :: front, back, fun v => (if_neg he).trans (congrArg (List.cons e) (ih v))⟩

theorem mem_assign {key : String} {value : α} {es : List (String × α)} {e : String × α}
    (h : e ∈ assign key value es) : e = (key, value) ∨ e ∈ es := by
  induction es with
  | nil => exact .inl (List.mem_singleton.1 h)
  | cons f es ih =>
    rw [assign] at h
    split at h
    · exact (List.mem_cons.1 h).imp_right (List.mem_cons_of_mem _)
    · rcases List.mem_cons.1 h with rfl | h
      · exact .inr List.mem_cons_self
      · exact (ih h).imp_right (List.mem_cons_of_mem _)

theorem insertAll_cons (t : Keyed α) (e : String × α) (es : List (String × α)) :
    t.insertAll (e :: es) = (t.insert e.1 e.2).insertAll es :=
  rfl

theorem insertAll_append (t : Keyed α) (es fs : List (String × α)) :
    t.insertAll (es ++ fs) = (t.insertAll es).insertAll fs :=
  List.foldl_append

/-- An entry of a table was there or has been written. -/
theorem mem_insertAll {t : Keyed α} {es : List (String × α)} {e : String × α}
    (h : e ∈ (t.insertAll es).entries) : e ∈ t.entries ∨ e ∈ es := by
  induction es generalizing t with
  | nil => exact .inl h
  | cons f es ih =>
    rw [insertAll_cons] at h
    obtain h | h := ih h
    · obtain rfl | h := mem_assign h
      · exact .inr List.mem_cons_self
      · exact .inl h
    · exact .inr (List.mem_cons_of_mem _ h)

theorem mem_ofList {es : List (String × α)} {e : String × α} (h : e ∈ (ofList es).entries) :
    e ∈ es :=
  (mem_insertAll h).resolve_left List.not_mem_nil

theorem entries_insertAll {t : Keyed α} {es : List (String × α)}
    (h : ((t.entries ++ es).map (·.1)).Nodup) : (t.insertAll es).entries = t.entries ++ es := by
  induction es generalizing t with
  | nil => simp [insertAll]
  | cons e es ih =>
    have hnot : e.1 ∉ t.entries.map (·.1) := by
      rw [List.map_append, List.map_cons, List.nodup_append] at h
      exact fun hm => h.2.2 _ hm _ List.mem_cons_self rfl
    have hinsert : (t.insert e.1 e.2).entries = t.entries ++ [e] := assign_of_not_mem e.2 hnot
    rw [insertAll_cons, ih (by rw [hinsert, List.append_assoc]; exact h), hinsert,
      List.append_assoc]
    rfl

/-- A table holds its own entries. -/
theorem ofList_entries (t : Keyed α) : ofList t.entries = t :=
  eq_of_entries (entries_insertAll (t := empty) t.nodup)

/-! ### Reading -/

/-- A key has one value at most. -/
theorem get?_eq_some_iff {t : Keyed α} {key : String} {value : α} :
    t.get? key = some value ↔ (key, value) ∈ t.entries := by
  obtain ⟨es, hn⟩ := t
  simp only [get?]
  induction es with
  | nil => simp
  | cons e es ih =>
    obtain ⟨k, v⟩ := e
    rw [List.map_cons, List.nodup_cons] at hn
    rw [List.lookup_cons, List.mem_cons]
    by_cases hk : key = k
    · subst hk
      have hnot : (key, value) ∉ es := fun hm => hn.1 (List.mem_map.2 ⟨_, hm, rfl⟩)
      simp [hnot, eq_comm]
    · simp [beq_eq_false_iff_ne.2 hk, hk, ih hn.2]

/-- What stands under a key that the values tell themselves. -/
theorem lookup_map (key : α → String) (xs : List α) (k : String) :
    (xs.map fun x => (key x, x)).lookup k = xs.find? (key · = k) := by
  induction xs with
  | nil => rfl
  | cons x xs ih =>
    rw [List.map_cons, List.lookup_cons, List.find?_cons, ih]
    by_cases hk : key x = k
    · simp [hk]
    · simp [hk, beq_eq_false_iff_ne.2 (Ne.symm hk)]

theorem mem_keys_of_get? {t : Keyed α} {key : String} {value : α}
    (h : t.get? key = some value) : key ∈ t.keys :=
  List.mem_map.2 ⟨_, get?_eq_some_iff.1 h, rfl⟩

theorem mem_values_of_get? {t : Keyed α} {key : String} {value : α}
    (h : t.get? key = some value) : value ∈ t.values :=
  List.mem_map.2 ⟨_, get?_eq_some_iff.1 h, rfl⟩

theorem get?_eq_none_iff {t : Keyed α} {key : String} :
    t.get? key = none ↔ key ∉ t.entries.map (·.1) := by
  rw [get?, List.lookup_eq_none_iff, List.mem_map]
  simp only [bne_iff_ne, not_exists, not_and]
  exact forall₂_congr fun e he => ne_comm

theorem lookup_assign (key : String) (value : α) (es : List (String × α)) (k : String) :
    (assign key value es).lookup k = if k = key then some value else es.lookup k := by
  have hcons (a : String) (v : α) (l : List (String × α)) :
      ((a, v) :: l).lookup k = if k = a then some v else l.lookup k := by
    by_cases hk : k = a
    · simp [hk]
    · simp [List.lookup_cons, beq_eq_false_iff_ne.2 hk, hk]
  induction es with
  | nil => exact hcons key value []
  | cons e es ih =>
    obtain ⟨a, v⟩ := e
    rw [assign]
    split
    · rename_i heq
      subst heq
      rw [hcons, hcons]
      split <;> rfl
    · rename_i hne
      rw [hcons, hcons, ih]
      split
      · rename_i hk
        rw [if_neg (hk ▸ hne)]
      · rfl

theorem get?_insert (t : Keyed α) (key : String) (value : α) (k : String) :
    (t.insert key value).get? k = if k = key then some value else t.get? k :=
  lookup_assign key value t.entries k

theorem get?_insertAll_of_not_mem {t : Keyed α} {es : List (String × α)} {key : String}
    (h : key ∉ es.map (·.1)) : (t.insertAll es).get? key = t.get? key := by
  induction es generalizing t with
  | nil => rfl
  | cons e es ih =>
    rw [List.map_cons, List.mem_cons, not_or] at h
    rw [insertAll_cons, ih h.2, get?_insert, if_neg h.1]

theorem get?_insertAll_of_mem {t : Keyed α} {es : List (String × α)} {key : String} {value : α}
    (hn : (es.map (·.1)).Nodup) (h : (key, value) ∈ es) :
    (t.insertAll es).get? key = some value := by
  induction es generalizing t with
  | nil => cases h
  | cons e es ih =>
    rw [List.map_cons, List.nodup_cons] at hn
    rw [insertAll_cons]
    rcases List.mem_cons.1 h with rfl | h
    · rw [get?_insertAll_of_not_mem hn.1, get?_insert, if_pos rfl]
    · exact ih hn.2 h

/-! ### Entries written one after another -/

theorem ofList_concat (es : List (String × α)) (e : String × α) :
    ofList (es ++ [e]) = (ofList es).insert e.1 e.2 := by
  rw [ofList, insertAll, List.foldl_append]
  rfl

/-- Every key stands where it was written first. -/
theorem keys_ofList (es : List (String × α)) :
    (ofList es).keys = (es.map (·.1)).eraseDups := by
  induction es using List.reverseRecOn with
  | nil => rfl
  | append_singleton es e ih =>
    have hmem : e.1 ∈ (ofList es).keys ↔ e.1 ∈ es.map (·.1) := by rw [ih, List.mem_eraseDups]
    have hkeys : (ofList (es ++ [e])).keys
        = if e.1 ∈ (ofList es).keys then (ofList es).keys else (ofList es).keys ++ [e.1] := by
      rw [ofList_concat]
      exact keys_assign e.1 e.2 (ofList es).entries
    rw [hkeys, List.map_append, List.eraseDups_append, ← ih]
    by_cases h : e.1 ∈ es.map (·.1)
    · rw [if_pos (hmem.2 h)]
      simp [List.removeAll, h]
    · rw [if_neg fun hk => h (hmem.1 hk)]
      simp [List.removeAll, h, List.eraseDups_cons]

/-- Keys without their repetitions are distinct: they are the keys of a table. -/
theorem nodup_eraseDups (keys : List String) : keys.eraseDups.Nodup := by
  have hkeys := keys_ofList (keys.map fun k => (k, ()))
  rw [List.map_map, Function.comp_def, List.map_id'] at hkeys
  rw [← hkeys]
  exact (ofList _).nodup

/-- Every key has the value that was written last. -/
theorem get?_ofList (es : List (String × α)) (key : String) :
    (ofList es).get? key = es.reverse.lookup key := by
  induction es using List.reverseRecOn with
  | nil => rfl
  | append_singleton es e ih =>
    rw [ofList_concat, get?_insert, ih, List.reverse_concat, List.lookup_cons]
    by_cases h : key = e.1
    · simp [h]
    · simp [h, beq_eq_false_iff_ne.2 h]

/-- What one entry writes stands at one place, whatever it is, unless a later entry of its key
replaces it. -/
theorem ofList_gap (before : List (String × α)) (key : String) (after : List (String × α)) :
    key ∈ after.map (·.1)
        ∧ (∀ v w, ofList (before ++ (key, v) :: after) = ofList (before ++ (key, w) :: after))
      ∨ ∃ front back, ∀ v,
        (ofList (before ++ (key, v) :: after)).entries = front ++ (key, v) :: back := by
  induction after using List.reverseRecOn with
  | nil =>
    refine .inr ?_
    simp only [ofList_concat]
    by_cases hk : key ∈ (ofList before).entries.map (·.1)
    · obtain ⟨⟨k, old⟩, he, rfl⟩ := List.mem_map.1 hk
      obtain ⟨front, back, hes⟩ := List.append_of_mem he
      exact ⟨front, back, fun v => entries_insert_of_eq hes⟩
    · exact ⟨_, [], fun v => assign_of_not_mem v hk⟩
  | append_singleton after e ih =>
    have hconcat (v : α) : ofList (before ++ (key, v) :: (after ++ [e]))
        = (ofList (before ++ (key, v) :: after)).insert e.1 e.2 := by
      rw [← List.cons_append, ← List.append_assoc, ofList_concat]
    simp only [hconcat, List.map_append, List.mem_append]
    obtain ⟨hk, heq⟩ | ⟨front, back, hes⟩ := ih
    · exact .inl ⟨.inl hk, fun v w => by rw [heq v w]⟩
    · by_cases hk : key = e.1
      · subst hk
        refine .inl ⟨.inr List.mem_cons_self, fun v w => eq_of_entries ?_⟩
        rw [entries_insert_of_eq (hes v), entries_insert_of_eq (hes w)]
      · obtain ⟨front', back', hassign⟩ := assign_gap hk e.2 front back
        refine .inr ⟨front', back', fun v => ?_⟩
        rw [← hassign v, ← hes v]
        rfl

/-! ### A table written into another -/

theorem assign_assign_same (key : String) (value old : α) (es : List (String × α)) :
    assign key value (assign key old es) = assign key value es := by
  induction es with
  | nil => exact if_pos rfl
  | cons e es ih =>
    obtain ⟨k, v⟩ := e
    by_cases hk : k = key
    · simp [assign, hk]
    · simp [assign, hk, ih]

/-- A key that is there can be written before or after another. -/
theorem assign_comm {key key' : String} (hne : key ≠ key') (value value' : α)
    {es : List (String × α)} (h : key ∈ es.map (·.1)) :
    assign key value (assign key' value' es) = assign key' value' (assign key value es) := by
  induction es with
  | nil => cases h
  | cons e es ih =>
    obtain ⟨k, v⟩ := e
    by_cases hk : k = key
    · subst hk
      simp [assign, hne]
    · have hmem : key ∈ es.map (·.1) := (List.mem_cons.1 h).resolve_left (Ne.symm hk)
      by_cases hk' : k = key'
      · subst hk'
        simp [assign, hk]
      · simp [assign, hk, hk', ih hmem]

theorem mem_keys_insert {t : Keyed α} {key k : String} {value : α} :
    k ∈ (t.insert key value).keys ↔ k ∈ t.keys ∨ k = key := by
  show k ∈ (assign key value t.entries).map (·.1) ↔ k ∈ t.entries.map (·.1) ∨ k = key
  rw [keys_assign]
  split
  · rename_i hkey
    exact ⟨.inl, fun h => h.elim id fun hk => hk ▸ hkey⟩
  · rw [List.mem_append, List.mem_singleton]

theorem insert_insertAll {t : Keyed α} {key : String} (value : α) (hk : key ∈ t.keys)
    {es : List (String × α)} (h : key ∉ es.map (·.1)) :
    (t.insertAll es).insert key value = (t.insert key value).insertAll es := by
  induction es generalizing t with
  | nil => rfl
  | cons e es ih =>
    rw [List.map_cons, List.mem_cons, not_or] at h
    rw [insertAll_cons, insertAll_cons, ih (mem_keys_insert.2 (.inl hk)) h.2]
    congr 1
    exact eq_of_entries (assign_comm h.1 value e.2 hk)

/-- Writing one entry more into a table that is written into another comes to writing it into the
other. -/
theorem insertAll_insert (t u : Keyed α) (key : String) (value : α) :
    t.insertAll (u.insert key value).entries = (t.insertAll u.entries).insert key value := by
  obtain ⟨es, hn⟩ := u
  show t.insertAll (assign key value es) = _
  induction es generalizing t with
  | nil => rfl
  | cons e es ih =>
    obtain ⟨k, v⟩ := e
    rw [List.map_cons, List.nodup_cons] at hn
    by_cases hk : k = key
    · subst hk
      have hmem : k ∈ (t.insert k v).keys := mem_keys_insert.2 (.inr rfl)
      have hsame : (t.insert k v).insert k value = t.insert k value :=
        eq_of_entries (assign_assign_same k value v t.entries)
      rw [assign, if_pos rfl, insertAll_cons, insertAll_cons, insert_insertAll value hmem hn.1,
        hsame]
    · rw [assign, if_neg hk, insertAll_cons, insertAll_cons, ih _ hn.2]

/-- Entries can be written into a table by way of a table of their own. -/
theorem insertAll_ofList (t : Keyed α) (es : List (String × α)) :
    t.insertAll (ofList es).entries = t.insertAll es := by
  induction es using List.reverseRecOn with
  | nil => rfl
  | append_singleton es e ih =>
    rw [ofList_concat, insertAll_insert, ih, insertAll, insertAll, List.foldl_append]
    rfl

theorem keys_insertAll (t u : Keyed α) :
    (t.insertAll u.entries).keys = t.keys ++ u.keys.filter (· ∉ t.keys) := by
  obtain ⟨es, hn⟩ := u
  show (t.insertAll es).keys = t.keys ++ (es.map (·.1)).filter (· ∉ t.keys)
  induction es generalizing t with
  | nil => simp [insertAll]
  | cons e es ih =>
    rw [List.map_cons, List.nodup_cons] at hn
    have hkeys : (t.insert e.1 e.2).keys
        = if e.1 ∈ t.keys then t.keys else t.keys ++ [e.1] := keys_assign e.1 e.2 t.entries
    rw [insertAll_cons, ih _ hn.2, hkeys, List.map_cons, List.filter_cons]
    split
    · rename_i hmem
      simp [hmem]
    · rename_i hmem
      have hrest : (es.map (·.1)).filter (· ∉ t.keys ++ [e.1])
          = (es.map (·.1)).filter (· ∉ t.keys) := by
        refine List.filter_congr fun k hk => ?_
        have hne : k ≠ e.1 := fun h => hn.1 (h ▸ hk)
        simp [hne]
      rw [hrest, if_pos (by simpa using hmem), List.append_assoc]
      rfl

theorem get?_insertAll (t u : Keyed α) (key : String) :
    (t.insertAll u.entries).get? key = (u.get? key).or (t.get? key) := by
  cases hu : u.get? key with
  | none => exact get?_insertAll_of_not_mem (get?_eq_none_iff.1 hu)
  | some value => exact get?_insertAll_of_mem u.nodup (get?_eq_some_iff.1 hu)

end DocDirective.Keyed
