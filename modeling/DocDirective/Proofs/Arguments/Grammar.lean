import DocDirective.Proofs.Arguments.Values
import Mathlib.Data.List.Forall2

/-!
# Proofs — Arguments — Grammar

The grammar of argument lists.

    Top   = '(' [ Entry (',' Entry)* [','] ] ')'
    Entry = [ Atom ':' ] (Atom | Group)
    Group = '(' [ Atom (',' Atom)* [','] ] ')'
    Atom  = literal | word

What a tree is spelled with (`Derives`) says nothing about the parser, nor does what it means.  The
parser reads every tree as its meaning (`Derives.parse`), and nothing without one
(`derives_of_parse`).
-/

namespace DocDirective.Arguments

/-! ### Trees -/

/-- A literal or a word. -/
inductive Atom
  | literal (content : String)
  | word    (text : String)

/-- What stands for a value: an atom, or a group of atoms. -/
inductive Operand
  | atom  (a : Atom)
  | group (as : List Atom)

/-- What stands for an entry: an operand with or without an atom for its key. -/
structure Phrase where
  key?    : Option Atom
  operand : Operand

/-- The token of an atom. -/
def Atom.token : Atom → Token
  | .literal s => .literal s
  | .word w    => .word w

/-! ### Spelling -/

section Spelling

variable {α : Type} (Spells : α → List Token → Prop)

/-- One or more pieces with commas between them. -/
inductive Row : List α → List Token → Prop
  | last {a : α} {ts : List Token} (h : Spells a ts) : Row [a] ts
  | more {a : α} {as : List α} {ts us : List Token} (h : Spells a ts) (tail : Row as us) :
      Row (a :: as) (ts ++ .mark .comma :: us)

/-- Pieces behind an opening parenthesis, up to the closing one. -/
inductive Tail : List α → List Token → Prop
  | empty : Tail [] [.mark .closing]
  | row {as : List α} {ts : List Token} (h : Row Spells as ts) : Tail as (ts ++ [.mark .closing])
  | trailing {as : List α} {ts : List Token} (h : Row Spells as ts) :
      Tail as (ts ++ [.mark .comma, .mark .closing])

/-- Pieces in parentheses. -/
def Enclosed (as : List α) (ts : List Token) : Prop :=
  ∃ us, ts = .mark .opening :: us ∧ Tail Spells as us

end Spelling

/-- An atom is one token. -/
def Atom.Spells (a : Atom) (ts : List Token) : Prop := ts = [a.token]

/-- The tokens of an operand. -/
inductive Operand.Spells : Operand → List Token → Prop
  | atom {a : Atom} {ts : List Token} (h : a.Spells ts) : Spells (.atom a) ts
  | group {as : List Atom} {ts : List Token} (h : Enclosed Atom.Spells as ts) :
      Spells (.group as) ts

/-- The tokens of an entry. -/
inductive Phrase.Spells : Phrase → List Token → Prop
  | plain {o : Operand} {ts : List Token} (h : o.Spells ts) : Spells ⟨none, o⟩ ts
  | keyed {k : Atom} {o : Operand} {ts : List Token} (h : o.Spells ts) :
      Spells ⟨some k, o⟩ (k.token :: .mark .colon :: ts)

/-- The tokens derive from the grammar, by the tree of these phrases. -/
def Derives (ps : List Phrase) (ts : List Token) : Prop := Enclosed Phrase.Spells ps ts

/-! ### Meaning -/

/-- A literal has its content for a value, a word what it is read as. -/
inductive Atom.Means : Atom → Value → Prop
  | literal (s : String) : Means (.literal s) (.text s)
  | word {w : String} {v : Value} (h : wordValue w = .ok v) : Means (.word w) v

/-- A group has the list of its atoms' values for a value. -/
inductive Operand.Means : Operand → Value → Prop
  | atom {a : Atom} {v : Value} (h : a.Means v) : Means (.atom a) v
  | group {as : List Atom} {vs : List Value} (h : List.Forall₂ Atom.Means as vs) :
      Means (.group as) (.list vs)

/-- The text of an atom. -/
def Atom.text : Atom → String
  | .literal s => s
  | .word w    => w

/-- An entry has the text of its key in lower case. -/
structure Phrase.Means (p : Phrase) (e : Entry) : Prop where
  key   : e.key? = p.key?.map fun k => Text.lowered k.text
  value : p.operand.Means e.value

theorem Atom.Means.atomValue {a : Atom} {v : Value} (h : a.Means v) :
    atomValue a.token = .ok v := by
  cases h with
  | literal s => rfl
  | word h => exact h

theorem exists_atom {t : Token} {v : Value} (h : atomValue t = .ok v) :
    ∃ a : Atom, t = a.token ∧ a.Means v := by
  cases t with
  | mark m => cases h
  | literal s =>
    cases h
    exact ⟨.literal s, rfl, .literal s⟩
  | word w => exact ⟨.word w, rfl, .word h⟩

/-! ### Rows that are read from the left -/

section Tail

variable {α : Type} {Spells : α → List Token → Prop}

theorem Tail.single {a : α} {ts : List Token} (h : Spells a ts) :
    Tail Spells [a] (ts ++ [.mark .closing]) :=
  .row (.last h)

theorem Tail.cons {a : α} {as : List α} {ts us : List Token} (h : Spells a ts)
    (tail : Tail Spells as us) : Tail Spells (a :: as) (ts ++ .mark .comma :: us) := by
  cases tail with
  | empty => exact .trailing (.last h)
  | row hrow => simpa using Tail.row (.more h hrow)
  | trailing hrow => simpa using Tail.trailing (.more h hrow)

/-- Pieces up to a closing parenthesis are nothing, or one piece, or a piece and a comma with more
of them behind. -/
theorem Tail.induct {motive : (as : List α) → (ts : List Token) → Tail Spells as ts → Prop}
    (nil : motive [] [.mark .closing] .empty)
    (single : ∀ {a ts} (h : Spells a ts), motive [a] (ts ++ [.mark .closing]) (.single h))
    (cons : ∀ {a as ts us} (h : Spells a ts) (tail : Tail Spells as us), motive as us tail →
      motive (a :: as) (ts ++ .mark .comma :: us) (.cons h tail))
    {as : List α} {ts : List Token} (h : Tail Spells as ts) : motive as ts h := by
  have hrow {as : List α} {ts : List Token} (h : Row Spells as ts) :
      motive as (ts ++ [.mark .closing]) (.row h)
        ∧ motive as (ts ++ [.mark .comma, .mark .closing]) (.trailing h) := by
    induction h with
    | last h => exact ⟨single h, cons h .empty nil⟩
    | more h tail ih =>
      simp only [List.append_assoc, List.cons_append]
      exact ⟨cons h (.row tail) ih.1, cons h (.trailing tail) ih.2⟩
  cases h with
  | empty => exact nil
  | row h => exact (hrow h).1
  | trailing h => exact (hrow h).2

end Tail

/-! ### Trees are read -/

section Items

variable {v : Value} {t : Token} (hv : atomValue t = .ok v)

include hv

theorem items_last (rest : List Token) :
    items (t :: .mark .closing :: rest) = .ok ([v], rest) := by
  cases t with
  | mark m => cases hv
  | literal s => simp [items, hv, bind, Except.bind, pure, Except.pure]
  | word w => simp [items, hv, bind, Except.bind, pure, Except.pure]

theorem items_more {vs : List Value} {us rest : List Token} (h : items us = .ok (vs, rest)) :
    items (t :: .mark .comma :: us) = .ok (v :: vs, rest) := by
  cases t with
  | mark m => cases hv
  | literal s => simp [items, hv, h, bind, Except.bind, pure, Except.pure]
  | word w => simp [items, hv, h, bind, Except.bind, pure, Except.pure]

theorem topValue_atom (rest : List Token) : topValue (t :: rest) = .ok (v, rest) := by
  cases t with
  | mark m => cases hv
  | literal s => simp [topValue, hv, bind, Except.bind, pure, Except.pure]
  | word w => simp [topValue, hv, bind, Except.bind, pure, Except.pure]

end Items

section Entries

variable {e : Entry} {ts : List Token} (hts : ∀ rest, ts ≠ .mark .closing :: rest)

include hts

theorem entries_last {rest : List Token} (h : entry ts = .ok (e, .mark .closing :: rest)) :
    entries ts = .ok ([e], rest) := by
  rw [entries.eq_def]
  split
  · exact absurd rfl (hts _)
  · split <;> rename_i h' <;> cases h.symm.trans h'
    · rfl
    · rename_i hclosing _
      exact absurd rfl (hclosing rest)

theorem entries_more {es : List Entry} {us rest : List Token}
    (h : entry ts = .ok (e, .mark .comma :: us)) (hus : entries us = .ok (es, rest)) :
    entries ts = .ok (e :: es, rest) := by
  rw [entries.eq_def]
  split
  · exact absurd rfl (hts _)
  · split <;> rename_i h' <;> cases h.symm.trans h'
    · rw [hus]
      rfl
    · rename_i _ hcomma
      exact absurd rfl (hcomma us)

end Entries

theorem Tail.items {as : List Atom} {us : List Token} (h : Tail Atom.Spells as us)
    {vs : List Value} (hvs : List.Forall₂ Atom.Means as vs) (rest : List Token) :
    items (us ++ rest) = .ok (vs, rest) := by
  induction h using Tail.induct generalizing vs with
  | nil =>
    cases hvs
    simp [Arguments.items]
  | single h =>
    obtain rfl := h
    obtain _ | ⟨hv, hnil⟩ := hvs
    cases hnil
    exact items_last hv.atomValue rest
  | cons h _ ih =>
    obtain rfl := h
    obtain _ | ⟨hv, hvs⟩ := hvs
    exact items_more hv.atomValue (ih hvs)

theorem Operand.Spells.topValue {o : Operand} {us : List Token} (h : o.Spells us) {v : Value}
    (hv : o.Means v) (rest : List Token) : topValue (us ++ rest) = .ok (v, rest) := by
  cases h with
  | atom h =>
    obtain rfl := h
    obtain ⟨hv⟩ := hv
    exact topValue_atom hv.atomValue rest
  | group h =>
    obtain ⟨us, rfl, h⟩ := h
    obtain _ | ⟨hvs⟩ := hv
    rw [List.cons_append, Arguments.topValue, h.items hvs rest]
    rfl

/-- A key is told by the colon behind it, so an operand has none if anything else follows. -/
theorem Operand.Spells.splitKey {o : Operand} {us : List Token} (h : o.Spells us) {m : Mark}
    (hm : m ≠ .colon) (rest : List Token) :
    splitKey (us ++ .mark m :: rest) = (none, us ++ .mark m :: rest) := by
  cases h with
  | @atom a _ h =>
    obtain rfl := h
    cases a <;> cases m <;> first | rfl | exact absurd rfl hm
  | group h =>
    obtain ⟨us, rfl, -⟩ := h
    rfl

theorem Phrase.Spells.entry {p : Phrase} {us : List Token} (h : p.Spells us) {e : Entry}
    (he : p.Means e) {m : Mark} (hm : m ≠ .colon) (rest : List Token) :
    entry (us ++ .mark m :: rest) = .ok (e, .mark m :: rest) := by
  obtain ⟨key?, v⟩ := e
  obtain ⟨rfl, hv⟩ := he
  cases h with
  | plain h =>
    simp only [Arguments.entry, h.splitKey hm, h.topValue hv]
    rfl
  | @keyed k o us h =>
    have htop := h.topValue hv (.mark m :: rest)
    cases k <;> simp only [Arguments.entry, Atom.token, List.cons_append, Arguments.splitKey,
      htop] <;> rfl

theorem Phrase.Spells.ne_closing {p : Phrase} {us : List Token} (h : p.Spells us)
    (vs rest : List Token) : us ++ vs ≠ .mark .closing :: rest := by
  rintro heq
  cases h with
  | plain h =>
    cases h with
    | @atom a _ h =>
      obtain rfl := h
      cases a <;> cases heq
    | group h =>
      obtain ⟨us, rfl, -⟩ := h
      cases heq
  | @keyed k => cases k <;> cases heq

theorem Tail.entries {ps : List Phrase} {us : List Token} (h : Tail Phrase.Spells ps us)
    {es : List Entry} (hes : List.Forall₂ Phrase.Means ps es) (rest : List Token) :
    entries (us ++ rest) = .ok (es, rest) := by
  induction h using Tail.induct generalizing es with
  | nil =>
    cases hes
    simp [Arguments.entries]
  | single h =>
    obtain _ | ⟨he, hnil⟩ := hes
    cases hnil
    rw [List.append_assoc]
    exact entries_last (h.ne_closing _) (h.entry he (by decide) rest)
  | cons h _ ih =>
    obtain _ | ⟨he, hes⟩ := hes
    rw [List.append_assoc]
    exact entries_more (h.ne_closing _) (h.entry he (by decide) _) (ih hes)

/-- A tree is read as the entries that its phrases mean. -/
theorem Derives.parse {ps : List Phrase} {ts : List Token} (h : Derives ps ts) {es : List Entry}
    (hes : List.Forall₂ Phrase.Means ps es) : parse ts = .ok es := by
  obtain ⟨us, rfl, h⟩ := h
  have hread := h.entries hes []
  rw [List.append_nil] at hread
  rw [Arguments.parse, hread]
  rfl

/-! ### What is read has a tree -/

theorem tail_of_items {ts rest : List Token} {vs : List Value} (h : items ts = .ok (vs, rest)) :
    ∃ as us, ts = us ++ rest ∧ Tail Atom.Spells as us ∧ List.Forall₂ Atom.Means as vs := by
  fun_induction items ts generalizing vs with
  | case1 => cases h
  | case2 =>
    cases h
    exact ⟨[], _, rfl, .empty, .nil⟩
  | case3 => cases h
  | case4 => cases h
  | case5 => cases h
  | case6 t us _ _ _ _ ih =>
    obtain ⟨v, hv, h⟩ := exists_of_bind h
    split at h
    · cases h
      obtain ⟨a, rfl, hmeans⟩ := exists_atom hv
      exact ⟨[a], _, rfl, .single rfl, .cons hmeans .nil⟩
    · obtain ⟨r, hr, h⟩ := exists_of_bind h
      cases h
      obtain ⟨a, rfl, hmeans⟩ := exists_atom hv
      obtain ⟨as, us, rfl, htail, hvs⟩ := ih hr
      exact ⟨a :: as, _, rfl, .cons rfl htail, .cons hmeans hvs⟩
    · cases h

theorem operand_of_topValue {ts rest : List Token} {v : Value}
    (h : topValue ts = .ok (v, rest)) :
    ∃ (o : Operand) (us : List Token), ts = us ++ rest ∧ o.Spells us ∧ o.Means v := by
  unfold topValue at h
  split at h
  · cases h
  · obtain ⟨r, hr, h⟩ := exists_of_bind h
    cases h
    obtain ⟨as, us, rfl, htail, hvs⟩ := tail_of_items hr
    exact ⟨.group as, _, rfl, .group ⟨us, rfl, htail⟩, .group hvs⟩
  · obtain ⟨w, hw, h⟩ := exists_of_bind h
    cases h
    obtain ⟨a, rfl, hmeans⟩ := exists_atom hw
    exact ⟨.atom a, [a.token], rfl, .atom rfl, .atom hmeans⟩

theorem splitKey_cases (ts : List Token) :
    (∃ (k : Atom) (us : List Token), ts = k.token :: .mark .colon :: us
        ∧ splitKey ts = (some (Text.lowered k.text), us))
      ∨ splitKey ts = (none, ts) := by
  unfold splitKey
  split
  · exact .inl ⟨.literal _, _, rfl, rfl⟩
  · exact .inl ⟨.word _, _, rfl, rfl⟩
  · exact .inr rfl

theorem phrase_of_entry {ts rest : List Token} {e : Entry} (h : entry ts = .ok (e, rest)) :
    ∃ (p : Phrase) (us : List Token), ts = us ++ rest ∧ p.Spells us ∧ p.Means e := by
  obtain ⟨r, hr, h⟩ := exists_of_bind h
  cases h
  obtain ⟨o, us, hus, hspells, hmeans⟩ := operand_of_topValue hr
  obtain ⟨k, vs, rfl, hsplit⟩ | hsplit := splitKey_cases ts
  · rw [hsplit] at hus ⊢
    obtain rfl := hus
    exact ⟨⟨some k, o⟩, _, rfl, .keyed hspells, rfl, hmeans⟩
  · rw [hsplit] at hus ⊢
    exact ⟨⟨none, o⟩, us, hus, .plain hspells, rfl, hmeans⟩

theorem tail_of_entries {ts rest : List Token} {es : List Entry}
    (h : entries ts = .ok (es, rest)) :
    ∃ ps us, ts = us ++ rest ∧ Tail Phrase.Spells ps us ∧ List.Forall₂ Phrase.Means ps es := by
  fun_induction entries ts generalizing es with
  | case1 =>
    cases h
    exact ⟨[], _, rfl, .empty, .nil⟩
  | case2 => cases h
  | case3 ts _ e us he =>
    cases h
    obtain ⟨p, vs, rfl, hspells, hmeans⟩ := phrase_of_entry he
    exact ⟨[p], _, by simp, .single hspells, .cons hmeans .nil⟩
  | case4 ts _ e us he _ ih =>
    cases hr : entries us with
    | error f =>
      rw [hr] at h
      cases h
    | ok r =>
      rw [hr] at h
      cases h
      obtain ⟨p, vs, rfl, hspells, hmeans⟩ := phrase_of_entry he
      obtain ⟨ps, ws, rfl, htail, hes⟩ := ih hr
      exact ⟨p :: ps, _, by simp, .cons hspells htail, .cons hmeans hes⟩
  | case5 => cases h

/-- Entries are read from tokens with a tree that means them. -/
theorem derives_of_parse {ts : List Token} {es : List Entry} (h : parse ts = .ok es) :
    ∃ ps, Derives ps ts ∧ List.Forall₂ Phrase.Means ps es := by
  unfold parse at h
  split at h
  · obtain ⟨r, hr, h⟩ := exists_of_bind h
    split at h
    · rename_i hnil
      cases h
      obtain ⟨ps, us, rfl, htail, hes⟩ := tail_of_entries hr
      rw [hnil, List.append_nil]
      exact ⟨ps, ⟨us, rfl, htail⟩, hes⟩
    · cases h
  · cases h

end DocDirective.Arguments
