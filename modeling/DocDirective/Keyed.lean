/-!
# Keyed

Tables of values under distinct keys, in the order in which the keys first came.  Writing to a key
that is there already replaces its value where it stands; a new key goes to the end.
-/

namespace DocDirective

/-- Values under distinct keys, in the order of first insertion. -/
structure Keyed (α : Type) where
  entries : List (String × α)
  nodup   : (entries.map (·.1)).Nodup

namespace Keyed

variable {α β : Type}

theorem eq_of_entries {t u : Keyed α} (h : t.entries = u.entries) : t = u := by
  cases t; cases u; simp_all

/-- The table with no entries. -/
def empty : Keyed α := ⟨[], by simp⟩

instance : Inhabited (Keyed α) := ⟨empty⟩

/-- The entries after a write: the value of the key is replaced in place, or added at the end. -/
def assign (key : String) (value : α) : List (String × α) → List (String × α)
  | []             => [(key, value)]
  | (k, v) :: rest => if k = key then (key, value) :: rest else (k, v) :: assign key value rest

theorem keys_assign (key : String) (value : α) (es : List (String × α)) :
    (assign key value es).map (·.1)
      = if key ∈ es.map (·.1) then es.map (·.1) else es.map (·.1) ++ [key] := by
  induction es with
  | nil => simp [assign]
  | cons e es ih =>
    obtain ⟨k, v⟩ := e
    by_cases h : k = key
    · simp [assign, h]
    · have hne : key ≠ k := fun e => h e.symm
      simp only [assign, h, if_false, List.map_cons, ih, List.mem_cons, hne, false_or]
      split <;> simp

theorem nodup_assign (key : String) (value : α) {es : List (String × α)}
    (h : (es.map (·.1)).Nodup) : ((assign key value es).map (·.1)).Nodup := by
  rw [keys_assign]
  split
  · exact h
  · rename_i hk
    refine List.nodup_append.2 ⟨h, by simp, ?_⟩
    intro a ha b hb
    simp only [List.mem_singleton] at hb
    exact fun e => hk (hb ▸ e ▸ ha)

/-- Writes a value under a key. -/
def insert (t : Keyed α) (key : String) (value : α) : Keyed α :=
  ⟨assign key value t.entries, nodup_assign key value t.nodup⟩

/-- The value under a key. -/
def get? (t : Keyed α) (key : String) : Option α := t.entries.lookup key

/-- A key is there. -/
def contains (t : Keyed α) (key : String) : Bool := (t.get? key).isSome

/-- The keys in order. -/
def keys (t : Keyed α) : List String := t.entries.map (·.1)

/-- The values in the order of their keys. -/
def values (t : Keyed α) : List α := t.entries.map (·.2)

/-- How many keys there are. -/
def size (t : Keyed α) : Nat := t.entries.length

/-- Writes entries one after another. -/
def insertAll (t : Keyed α) (es : List (String × α)) : Keyed α :=
  es.foldl (fun t e => t.insert e.1 e.2) t

/-- The table that holds entries written one after another. -/
def ofList (es : List (String × α)) : Keyed α := empty.insertAll es

end Keyed

end DocDirective
