import DocDirective.Proofs.Arguments.Derivation
import DocDirective.Proofs.Arguments.Gap

/-!
# Proofs — Arguments — Socket

Where a literal ends up in the parameters.  Tokens with a gap are spelled by a tree with a gap, so
they are read as entries with one value that holds what fills the gap (`parse_gap`), and give
parameters that hold it at one place (`collect_gap`).
-/

namespace DocDirective.Arguments

/-! ### Trees with a gap -/

/-- Where a text stands in a value: it is the value, or one of the items of a list. -/
inductive Socket
  | whole
  | item (before after : List Value)

/-- The value with the text. -/
def Socket.fill : Socket → String → Value
  | .whole, s             => .text s
  | .item before after, s => .list (before ++ .text s :: after)

theorem unkeyed_of_append {ts us : List Token} (h : Unkeyed (ts ++ us)) : Unkeyed ts := by
  cases ts with
  | nil => nofun
  | cons t ts => exact h

/-- A mark in front of tokens with a gap stands in front of the gap. -/
theorem mark_cons_eq_gap {m : Mark} {ts before after : List Token} {s : String}
    (h : .mark m :: ts = before ++ .literal s :: after) :
    ∃ rest, before = .mark m :: rest ∧ ts = rest ++ .literal s :: after := by
  cases before with
  | nil => cases h
  | cons t before =>
    rw [List.cons_append, List.cons.injEq] at h
    obtain ⟨rfl, hts⟩ := h
    exact ⟨before, rfl, hts⟩

/-- A piece that is spelled with a literal in it is one with a gap, of some shape, that the literal
fills. -/
def GapIn {α : Type} (Spells : α → List Token → Prop) (Shape : (String → α) → Prop) (s : String) :
    Prop :=
  ∀ a before after, Spells a (before ++ .literal s :: after) → Unkeyed after →
    ∃ f, Shape f ∧ f s = a ∧ ∀ d, Spells (f d) (before ++ .literal d :: after)

theorem Tail.gap {α : Type} {Spells : α → List Token → Prop} {Shape : (String → α) → Prop}
    {s : String} (hgap : GapIn Spells Shape s) {as : List α} {us : List Token}
    (h : Tail Spells as us) {before after : List Token} (hus : us = before ++ .literal s :: after)
    (hafter : Unkeyed after) :
    ∃ front f back, Shape f ∧ as = front ++ f s :: back
      ∧ ∀ d, Tail Spells (front ++ f d :: back) (before ++ .literal d :: after) := by
  induction h using Tail.induct generalizing before with
  | nil =>
    obtain ⟨rest, -, hnil⟩ := mark_cons_eq_gap hus
    cases rest <;> cases hnil
  | @single a ts h =>
    obtain ⟨rest, rfl, rfl⟩ | ⟨rest, -, hclosing⟩ := append_eq_gap hus
    · obtain ⟨f, hf, rfl, hspells⟩ := hgap a before rest h (unkeyed_of_append hafter)
      refine ⟨[], f, [], hf, rfl, fun d => ?_⟩
      simpa using Tail.single (hspells d)
    · obtain ⟨rest', -, hnil⟩ := mark_cons_eq_gap hclosing
      cases rest' <;> cases hnil
  | @cons a as ts us h tail ih =>
    obtain ⟨rest, rfl, rfl⟩ | ⟨rest, rfl, hrest⟩ := append_eq_gap hus
    · obtain ⟨f, hf, rfl, hspells⟩ := hgap a before rest h (unkeyed_of_append hafter)
      refine ⟨[], f, as, hf, rfl, fun d => ?_⟩
      simpa using Tail.cons (hspells d) tail
    · obtain ⟨rest', rfl, hus'⟩ := mark_cons_eq_gap hrest
      obtain ⟨front, f, back, hf, rfl, htail⟩ := ih hus'
      refine ⟨a :: front, f, back, hf, rfl, fun d => ?_⟩
      simpa using Tail.cons h (htail d)

theorem gapIn_atom (s : String) : GapIn Atom.Spells (· = Atom.literal) s := by
  intro a before after h _
  cases before with
  | nil =>
    obtain ⟨ha, rfl⟩ := List.cons.inj h
    refine ⟨_, rfl, ?_, fun d => rfl⟩
    cases a <;> cases ha
    rfl
  | cons t before =>
    obtain ⟨-, hnil⟩ := List.cons.inj h
    cases before <;> cases hnil

/-- The operand means a value with a socket that the gap fills. -/
def Operand.HasSocket (f : String → Operand) : Prop :=
  ∀ s v, (f s).Means v → ∃ socket : Socket, v = socket.fill s ∧ ∀ d, (f d).Means (socket.fill d)

theorem forall₂_gap {α β : Type} {R : α → β → Prop} {front back : List α} {a : α} {bs : List β}
    (h : List.Forall₂ R (front ++ a :: back) bs) :
    ∃ front' b back', bs = front' ++ b :: back' ∧ R a b
      ∧ ∀ a' b', R a' b' → List.Forall₂ R (front ++ a' :: back) (front' ++ b' :: back') := by
  induction front generalizing bs with
  | nil =>
    obtain _ | ⟨hab, hback⟩ := h
    exact ⟨[], _, _, rfl, hab, fun a' b' h' => .cons h' hback⟩
  | cons c front ih =>
    obtain _ | ⟨hcd, h⟩ := h
    obtain ⟨front', b, back', rfl, hab, hfill⟩ := ih h
    exact ⟨_ :: front', b, back', rfl, hab, fun a' b' h' => .cons hcd (hfill a' b' h')⟩

theorem gapIn_operand (s : String) : GapIn Operand.Spells Operand.HasSocket s := by
  intro o before after h hafter
  cases h with
  | atom h =>
    obtain ⟨f, rfl, rfl, hspells⟩ := gapIn_atom s _ before after h hafter
    refine ⟨fun d => .atom (.literal d), fun s v hv => ?_, rfl, fun d => .atom (hspells d)⟩
    obtain ⟨⟨⟩⟩ := hv
    exact ⟨.whole, rfl, fun d => .atom (.literal d)⟩
  | group h =>
    obtain ⟨us, hus, htail⟩ := h
    obtain ⟨rest, rfl, rfl⟩ := mark_cons_eq_gap hus.symm
    obtain ⟨front, f, back, rfl, rfl, hspells⟩ := htail.gap (gapIn_atom s) rfl hafter
    refine ⟨fun d => .group (front ++ .literal d :: back), fun s v hv => ?_, rfl,
      fun d => .group ⟨_, rfl, hspells d⟩⟩
    obtain _ | ⟨hvs⟩ := hv
    obtain ⟨front', b, back', rfl, hb, hfill⟩ := forall₂_gap hvs
    cases hb
    exact ⟨.item front' back', rfl, fun d => .group (hfill _ _ (.literal d))⟩

/-- The phrase means an entry with a socket that the gap fills. -/
def Phrase.HasSocket (f : String → Phrase) : Prop :=
  ∀ s e, (f s).Means e → ∃ (key? : Option String) (socket : Socket), e = ⟨key?, socket.fill s⟩
    ∧ ∀ d, (f d).Means ⟨key?, socket.fill d⟩

theorem Operand.HasSocket.phrase {f : String → Operand} (hf : Operand.HasSocket f)
    (key? : Option Atom) : Phrase.HasSocket fun d => ⟨key?, f d⟩ := by
  rintro s ⟨k, v⟩ ⟨hkey, hv⟩
  obtain ⟨socket, rfl, hfill⟩ := hf s v hv
  exact ⟨k, socket, rfl, fun d => ⟨hkey, hfill d⟩⟩

theorem gapIn_phrase (s : String) : GapIn Phrase.Spells Phrase.HasSocket s := by
  intro p before after h hafter
  generalize hts : before ++ .literal s :: after = ts at h
  cases h with
  | plain h =>
    subst hts
    obtain ⟨f, hf, rfl, hspells⟩ := gapIn_operand s _ before after h hafter
    exact ⟨_, hf.phrase none, rfl, fun d => .plain (hspells d)⟩
  | @keyed k o us h =>
    match before with
    | [] =>
      -- the literal would be the key
      rw [List.nil_append, List.cons.injEq] at hts
      exact absurd (hts.2 ▸ rfl) hafter
    | [t] =>
      rw [List.singleton_append, List.cons.injEq, List.cons.injEq] at hts
      cases hts.2.1
    | t :: t' :: before =>
      simp only [List.cons_append, List.cons.injEq] at hts
      obtain ⟨rfl, rfl, rfl⟩ := hts
      obtain ⟨f, hf, rfl, hspells⟩ := gapIn_operand s _ before after h hafter
      exact ⟨_, hf.phrase (some k), rfl, fun d => .keyed (hspells d)⟩

/-- **Tokens with a gap that is no key are read as entries with a gap**: what fills it stands in
one value, at the same place whatever it is. -/
theorem parse_gap {before after : List Token} {s : String} (hafter : Unkeyed after)
    {es : List Entry} (h : parse (before ++ .literal s :: after) = .ok es) :
    ∃ (front : List Entry) (key? : Option String) (socket : Socket) (back : List Entry),
      es = front ++ ⟨key?, socket.fill s⟩ :: back
        ∧ ∀ d, parse (before ++ .literal d :: after)
          = .ok (front ++ ⟨key?, socket.fill d⟩ :: back) := by
  obtain ⟨ps, ⟨us, hus, htail⟩, hes⟩ := derives_of_parse h
  obtain ⟨rest, rfl, rfl⟩ := mark_cons_eq_gap hus.symm
  obtain ⟨front, f, back, hf, rfl, hspells⟩ := htail.gap (gapIn_phrase s) rfl hafter
  obtain ⟨front', e, back', rfl, he, hfill⟩ := forall₂_gap hes
  obtain ⟨key?, socket, rfl, hmeans⟩ := hf s e he
  exact ⟨front', key?, socket, back', rfl, fun d =>
    Derives.parse ⟨_, rfl, hspells d⟩ (hfill _ _ (hmeans d))⟩

/-! ### Parameters with a gap -/

/-- Parameters that are the same but for one value, which is without a name or under one. -/
inductive SameBut (v w : Value) : Option String → Parameters → Parameters → Prop
  | unnamed (before after : List Value) (keyed : Keyed Value) :
      SameBut v w none ⟨before ++ v :: after, keyed⟩ ⟨before ++ w :: after, keyed⟩
  | named (positional : List Value) {t u : Keyed Value} {key : String}
      {before after : List (String × Value)} (ht : t.entries = before ++ (key, v) :: after)
      (hu : u.entries = before ++ (key, w) :: after) :
      SameBut v w (some key) ⟨positional, t⟩ ⟨positional, u⟩

/-- A later entry of the same key takes the place of the value. -/
def Replaced (key? : Option String) (back : List Entry) : Prop :=
  ∃ k, k ≠ "" ∧ key? = some k ∧ ∃ e ∈ back, e.key? = some k

theorem replaced_of_named {key? : Option String} {v : Value} {k : String} {back : List Entry}
    (hname : (Entry.mk key? v).name? = some k) (hk : k ∈ (named back).map (·.1)) :
    Replaced key? back := by
  obtain ⟨hkey, hne⟩ := Option.filter_eq_some_iff.1 hname
  obtain ⟨⟨_, u⟩, he, rfl⟩ := List.mem_map.1 hk
  obtain ⟨e, heback, hname'⟩ := List.mem_filterMap.1 he
  obtain ⟨k', hk', heq⟩ := Option.map_eq_some_iff.1 hname'
  cases heq
  exact ⟨_, by simpa using hne, hkey, e, heback, (Option.filter_eq_some_iff.1 hk').1⟩

theorem collect_gap {front back : List Entry} {key? : Option String} {v w : Value}
    (hv : ∀ e ∈ front ++ ⟨key?, v⟩ :: back, ∀ k ∈ e.key?, Text.lowered k = k)
    (hw : ∀ e ∈ front ++ ⟨key?, w⟩ :: back, ∀ k ∈ e.key?, Text.lowered k = k) :
    SameBut v w (Entry.mk key? v).name? (collect (front ++ ⟨key?, v⟩ :: back))
        (collect (front ++ ⟨key?, w⟩ :: back))
      ∨ Replaced key? back
        ∧ collect (front ++ ⟨key?, w⟩ :: back) = collect (front ++ ⟨key?, v⟩ :: back) := by
  rw [collect_eq hv, collect_eq hw]
  -- a name does not depend on the value
  have hsame : (Entry.mk key? w).name? = (Entry.mk key? v).name? := rfl
  cases hname : (Entry.mk key? v).name? with
  | none =>
    have hunnamed {u : Value} (hu : (Entry.mk key? u).name? = none) :
        unnamed (front ++ ⟨key?, u⟩ :: back) = unnamed front ++ u :: unnamed back := by
      simp [unnamed, hu]
    have hnamed {u : Value} (hu : (Entry.mk key? u).name? = none) :
        named (front ++ ⟨key?, u⟩ :: back) = named front ++ named back := by
      simp [named, hu]
    rw [hunnamed hname, hunnamed (hsame.trans hname), hnamed hname, hnamed (hsame.trans hname)]
    exact .inl (.unnamed ..)
  | some k =>
    have hunnamed {u : Value} (hu : (Entry.mk key? u).name? = some k) :
        unnamed (front ++ ⟨key?, u⟩ :: back) = unnamed front ++ unnamed back := by
      simp [unnamed, hu]
    have hnamed {u : Value} (hu : (Entry.mk key? u).name? = some k) :
        named (front ++ ⟨key?, u⟩ :: back) = named front ++ (k, u) :: named back := by
      simp [named, hu]
    rw [hunnamed hname, hunnamed (hsame.trans hname), hnamed hname, hnamed (hsame.trans hname)]
    obtain ⟨hk, heq⟩ | ⟨before, after, hes⟩ := Keyed.ofList_gap (named front) k (named back)
    · exact .inr ⟨replaced_of_named hname hk, by rw [heq v w]⟩
    · exact .inl (.named _ (hes v) (hes w))

end DocDirective.Arguments
