import DocDirective.Proofs.Arguments.Overlong
import DocDirective.Proofs.Arguments.Word

/-!
# Proofs — Arguments — Overrun

Words with too many digits, where a value is read.  Tokens are read from the left: such a word is
met when it stands where a value does and everything in front of it has a value (`Meets`).  Nothing
else keeps tokens from having parameters or a problem, and the first such word ends the reading.
-/

namespace DocDirective.Arguments

/-! ### Words without a value -/

/-- Behind the opening parenthesis or a comma of a list: the word stands where a value is read, and
the items in front of it have values. -/
inductive MeetsItem (w : String) : List Token → Prop where
  | here {rest : List Token} (h : rest.head? ≠ some (.mark .colon)) : MeetsItem w (.word w :: rest)
  | later {t : Token} {v : Value} {rest : List Token} (ht : atomValue t = .ok v)
      (tail : MeetsItem w rest) : MeetsItem w (t :: .mark .comma :: rest)

/-- Behind the opening parenthesis or a comma of the top level: the word stands where a value is
read, in a list or by itself, and the entries in front of it have values. -/
inductive Meets (w : String) : List Token → Prop where
  | here {ts rest : List Token} (h : (splitKey ts).2 = .word w :: rest) : Meets w ts
  | inList {ts rest : List Token} (h : (splitKey ts).2 = .mark .opening :: rest)
      (hitem : MeetsItem w rest) : Meets w ts
  | later {ts rest : List Token} {e : Entry} (h : entry ts = .ok (e, .mark .comma :: rest))
      (tail : Meets w rest) : Meets w ts

/-- A failure that is no problem is the one of a word with too many digits. -/
def Stuck (met : String → Prop) (f : Failure) : Prop :=
  (∃ p, f = .problem p) ∨ ∃ w n, met w ∧ TooLong w n ∧ f = .overlong (.reading n)

theorem atomValue_error {t : Token} {f : Failure} (h : atomValue t = .error f) :
    Stuck (fun w => t = .word w) f := by
  cases t with
  | mark m =>
    cases h
    exact .inl ⟨_, rfl⟩
  | literal s => cases h
  | word w =>
    obtain ⟨n, hlong, hf⟩ := wordValue_error h
    exact .inr ⟨w, n, rfl, hlong, hf⟩

theorem Stuck.imp {met met' : String → Prop} {f : Failure} (h : Stuck met f)
    (himp : ∀ w, met w → met' w) : Stuck met' f := by
  obtain hp | ⟨w, n, hw, hlong, hf⟩ := h
  · exact .inl hp
  · exact .inr ⟨w, n, himp w hw, hlong, hf⟩

theorem items_error {ts : List Token} {f : Failure} (h : items ts = .error f) :
    Stuck (MeetsItem · ts) f := by
  fun_induction items ts generalizing f with
  | case1 =>
    cases h
    exact .inl ⟨_, rfl⟩
  | case2 => cases h
  | case3 =>
    cases h
    exact .inl ⟨_, rfl⟩
  | case4 =>
    cases h
    exact .inl ⟨_, rfl⟩
  | case5 =>
    cases h
    exact .inl ⟨_, rfl⟩
  | case6 t rest _ _ _ hcolon ih =>
    obtain hv | ⟨v, hv, h⟩ := error_of_bind h
    · refine (atomValue_error hv).imp fun w hw => ?_
      subst hw
      refine .here fun hhead => ?_
      obtain ⟨rest', rfl⟩ := List.head?_eq_some_iff.1 hhead
      exact hcolon rest' rfl
    · split at h
      · cases h
      · obtain hitems | ⟨r, -, h⟩ := error_of_bind h
        · exact (ih hitems).imp fun w => .later hv
        · cases h
      · cases h
        exact .inl ⟨_, rfl⟩

theorem items_of_meetsItem {w : String} {n : Nat} (hlong : TooLong w n) {ts : List Token}
    (h : MeetsItem w ts) : items ts = .error (.overlong (.reading n)) := by
  induction h with
  | @here rest h =>
    have hv : atomValue (.word w) = .error (.overlong (.reading n)) := wordValue_of_tooLong hlong
    unfold items
    split
    · rename_i heq
      cases heq
    · rename_i heq
      cases heq
    · rename_i heq
      cases heq
    · rename_i heq
      cases heq
    · rename_i heq
      cases heq
      exact absurd rfl h
    · rename_i heq
      cases heq
      rw [hv]
      rfl
  | @later t v rest ht _ ih =>
    cases t with
    | mark m => cases ht
    | literal s => simp [items, ht, ih, bind, Except.bind]
    | word u => simp [items, ht, ih, bind, Except.bind]

theorem topValue_error {ts : List Token} {f : Failure} (h : topValue ts = .error f) :
    Stuck (fun w => (∃ rest, ts = .word w :: rest)
      ∨ ∃ rest, ts = .mark .opening :: rest ∧ MeetsItem w rest) f := by
  unfold topValue at h
  split at h
  · cases h
    exact .inl ⟨_, rfl⟩
  · rename_i rest
    obtain hitems | ⟨r, -, h⟩ := error_of_bind h
    · exact (items_error hitems).imp fun w hw => .inr ⟨rest, rfl, hw⟩
    · cases h
  · rename_i t rest _
    obtain hv | ⟨v, -, h⟩ := error_of_bind h
    · exact (atomValue_error hv).imp fun w hw => .inl ⟨rest, by rw [hw]⟩
    · cases h

theorem entry_error {ts : List Token} {f : Failure} (h : entry ts = .error f) :
    Stuck (Meets · ts) f := by
  obtain hv | ⟨r, -, h⟩ := error_of_bind h
  · refine (topValue_error hv).imp fun w hw => ?_
    obtain ⟨rest, hrest⟩ | ⟨rest, hrest, hitem⟩ := hw
    · exact .here hrest
    · exact .inList hrest hitem
  · cases h

theorem entries_error {ts : List Token} {f : Failure} (h : entries ts = .error f) :
    Stuck (Meets · ts) f := by
  fun_induction entries ts generalizing f with
  | case1 => cases h
  | case2 ts _ e he =>
    cases h
    exact entry_error he
  | case3 => cases h
  | case4 ts _ e rest he _ ih =>
    cases hr : entries rest with
    | error g =>
      rw [hr] at h
      cases h
      exact (ih hr).imp fun w => .later he
    | ok r =>
      rw [hr] at h
      cases h
  | case5 =>
    cases h
    exact .inl ⟨_, rfl⟩

/-- The end of a list is no entry. -/
theorem entry_closing (rest : List Token) :
    entry (.mark .closing :: rest)
      = .error (.problem (.unexpected (some (.mark .closing)))) := rfl

section Entries

variable {ts : List Token} (hts : ∀ rest, ts ≠ .mark .closing :: rest)

include hts

theorem entries_of_entry_error {f : Failure} (h : entry ts = .error f) :
    entries ts = .error f := by
  rw [entries.eq_def]
  split
  · exact absurd rfl (hts _)
  · split <;> rename_i h' <;> cases h.symm.trans h'
    rfl

theorem entries_more_error {e : Entry} {us : List Token} {f : Failure}
    (h : entry ts = .ok (e, .mark .comma :: us)) (hus : entries us = .error f) :
    entries ts = .error f := by
  rw [entries.eq_def]
  split
  · exact absurd rfl (hts _)
  · split <;> rename_i h' <;> cases h.symm.trans h'
    · rw [hus]
      rfl
    · rename_i _ hcomma
      exact absurd rfl (hcomma us)

end Entries

theorem entries_of_meets {w : String} {n : Nat} (hlong : TooLong w n) {ts : List Token}
    (h : Meets w ts) : entries ts = .error (.overlong (.reading n)) := by
  have hv : atomValue (.word w) = .error (.overlong (.reading n)) := wordValue_of_tooLong hlong
  induction h with
  | @here ts rest h =>
    refine entries_of_entry_error ?_ ?_
    · rintro rest' rfl
      cases h
    · simp [entry, h, topValue, hv, bind, Except.bind]
  | @inList ts rest h hitem =>
    refine entries_of_entry_error ?_ ?_
    · rintro rest' rfl
      cases h
    · simp [entry, h, topValue, items_of_meetsItem hlong hitem, bind, Except.bind]
  | @later ts rest e h _ ih =>
    refine entries_more_error ?_ h ih
    rintro rest' rfl
    rw [entry_closing] at h
    cases h

theorem parse_error {ts : List Token} {f : Failure} (h : parse ts = .error f) :
    Stuck (fun w => ∃ rest, ts = .mark .opening :: rest ∧ Meets w rest) f := by
  unfold parse at h
  split at h
  · rename_i rest
    obtain hr | ⟨r, -, h⟩ := error_of_bind h
    · exact (entries_error hr).imp fun w hw => ⟨rest, rfl, hw⟩
    · split at h
      · cases h
      · cases h
        exact .inl ⟨_, rfl⟩
  · cases h
    exact .inl ⟨_, rfl⟩

theorem parse_of_meets {w : String} {n : Nat} (hlong : TooLong w n) {rest : List Token}
    (h : Meets w rest) : parse (.mark .opening :: rest) = .error (.overlong (.reading n)) := by
  rw [parse, entries_of_meets hlong h]
  rfl

/-! ### Words that are met -/

theorem MeetsItem.mem {w : String} {ts : List Token} (h : MeetsItem w ts) : .word w ∈ ts := by
  induction h with
  | here _ => exact List.mem_cons_self
  | later _ _ ih => exact List.mem_cons_of_mem _ (List.mem_cons_of_mem _ ih)

theorem suffix_of_items {ts rest : List Token} {vs : List Value}
    (h : items ts = .ok (vs, rest)) : rest <:+ ts := by
  fun_induction items ts generalizing vs with
  | case1 => cases h
  | case2 r =>
    cases h
    exact List.suffix_cons _ _
  | case3 => cases h
  | case4 => cases h
  | case5 => cases h
  | case6 t us _ _ _ _ ih =>
    obtain ⟨v, -, h⟩ := exists_of_bind h
    split at h
    · cases h
      exact (List.suffix_cons _ _).trans (List.suffix_cons _ _)
    · obtain ⟨r, hr, h⟩ := exists_of_bind h
      cases h
      exact (ih hr).trans ((List.suffix_cons _ _).trans (List.suffix_cons _ _))
    · cases h

theorem suffix_splitKey (ts : List Token) : (splitKey ts).2 <:+ ts := by
  unfold splitKey
  split
  · exact (List.suffix_cons _ _).trans (List.suffix_cons _ _)
  · exact (List.suffix_cons _ _).trans (List.suffix_cons _ _)
  · exact List.suffix_rfl

theorem suffix_of_topValue {ts rest : List Token} {v : Value}
    (h : topValue ts = .ok (v, rest)) : rest <:+ ts := by
  unfold topValue at h
  split at h
  · cases h
  · obtain ⟨r, hr, h⟩ := exists_of_bind h
    cases h
    exact (suffix_of_items hr).trans (List.suffix_cons _ _)
  · obtain ⟨w, -, h⟩ := exists_of_bind h
    cases h
    exact List.suffix_cons _ _

theorem suffix_of_entry {ts rest : List Token} {e : Entry} (h : entry ts = .ok (e, rest)) :
    rest <:+ ts := by
  obtain ⟨r, hv, h⟩ := exists_of_bind h
  cases h
  exact (suffix_of_topValue hv).trans (suffix_splitKey ts)

theorem Meets.mem {w : String} {ts : List Token} (h : Meets w ts) : .word w ∈ ts := by
  induction h with
  | here h =>
    refine (suffix_splitKey _).subset ?_
    rw [h]
    exact List.mem_cons_self
  | inList h hitem =>
    refine (suffix_splitKey _).subset ?_
    rw [h]
    exact List.mem_cons_of_mem _ hitem.mem
  | later h _ ih => exact (suffix_of_entry h).subset (List.mem_cons_of_mem _ ih)

/-! ### Texts that overrun -/

/-- A word of `n` digits, too many to be read, stands where the text has a value, and everything
in front of it is read. -/
def Overruns (text : String) (n : Nat) : Prop :=
  ∃ rest w, Token.ofText text = .ok (.mark .opening :: rest) ∧ Meets w rest ∧ TooLong w n

end DocDirective.Arguments
