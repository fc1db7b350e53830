import DocDirective.Proofs.Arguments.Grammar
import DocDirective.Proofs.Arguments.Overrun
import DocDirective.Proofs.Keyed
import DocDirective.Proofs.Text.Casing

/-!
# Proofs — Arguments — Derivation

The parser accepts exactly its grammar (`parse_derives`).  Without overlong words every derivation
has a meaning, and of its entries the parameters hold the values without a name in order, and every
name at its first place with its last value.
-/

namespace DocDirective.Arguments

/-! ### Trees have a meaning -/

theorem Atom.exists_means {a : Atom} (h : ∀ w n, a.token = .word w → ¬ TooLong w n) :
    ∃ v, a.Means v := by
  cases a with
  | literal s => exact ⟨_, .literal s⟩
  | word w =>
    cases hv : wordValue w with
    | ok v => exact ⟨v, .word hv⟩
    | error f =>
      obtain ⟨n, hlong, -⟩ := wordValue_error hv
      exact absurd hlong (h w n rfl)

/-- Where every piece that is spelled in a text means something, so do the pieces together. -/
theorem Tail.exists_forall₂ {α β : Type} {Spells : α → List Token → Prop} {Means : α → β → Prop}
    {text : List Token} (hmeans : ∀ a us, Spells a us → us ⊆ text → ∃ b, Means a b)
    {as : List α} {us : List Token} (h : Tail Spells as us) (hus : us ⊆ text) :
    ∃ bs, List.Forall₂ Means as bs := by
  induction h using Tail.induct with
  | nil => exact ⟨[], .nil⟩
  | single h =>
    obtain ⟨b, hb⟩ := hmeans _ _ h (List.append_subset.1 hus).1
    exact ⟨[b], .cons hb .nil⟩
  | cons h _ ih =>
    obtain ⟨hfront, hback⟩ := List.append_subset.1 hus
    obtain ⟨b, hb⟩ := hmeans _ _ h hfront
    obtain ⟨bs, hbs⟩ := ih fun t ht => hback (List.mem_cons_of_mem _ ht)
    exact ⟨b :: bs, .cons hb hbs⟩

section Short

variable {ts : List Token} (hshort : ∀ w n, .word w ∈ ts → ¬ TooLong w n)

include hshort

theorem Operand.Spells.exists_means {o : Operand} {us : List Token} (h : o.Spells us)
    (hus : us ⊆ ts) : ∃ v, o.Means v := by
  have hatom (a : Atom) (us : List Token) (h : a.Spells us) (hus : us ⊆ ts) : ∃ v, a.Means v := by
    obtain rfl := h
    exact Atom.exists_means fun w n hw => hshort w n (hw ▸ hus List.mem_cons_self)
  cases h with
  | atom h =>
    obtain ⟨v, hv⟩ := hatom _ _ h hus
    exact ⟨v, .atom hv⟩
  | group h =>
    obtain ⟨us, rfl, htail⟩ := h
    obtain ⟨vs, hvs⟩ := htail.exists_forall₂ hatom fun t ht => hus (List.mem_cons_of_mem _ ht)
    exact ⟨.list vs, .group hvs⟩

theorem Phrase.Spells.exists_means {p : Phrase} {us : List Token} (h : p.Spells us)
    (hus : us ⊆ ts) : ∃ e, p.Means e := by
  cases h with
  | plain h =>
    obtain ⟨v, hv⟩ := h.exists_means hshort hus
    exact ⟨⟨none, v⟩, rfl, hv⟩
  | @keyed k o us h =>
    obtain ⟨v, hv⟩ := h.exists_means hshort fun t ht =>
      hus (List.mem_cons_of_mem _ (List.mem_cons_of_mem _ ht))
    exact ⟨⟨some (Text.lowered k.text), v⟩, rfl, hv⟩

theorem Derives.exists_means {ps : List Phrase} (h : Derives ps ts) :
    ∃ es, List.Forall₂ Phrase.Means ps es := by
  obtain ⟨us, rfl, htail⟩ := h
  exact htail.exists_forall₂ (fun _ _ h hus => h.exists_means hshort hus)
    (List.subset_cons_self _ _)

/-- Tokens that are refused have a problem. -/
theorem exists_problem {f : Failure} (h : parse ts = .error f) : ∃ p, f = .problem p := by
  obtain hp | ⟨w, n, ⟨rest, rfl, hmeets⟩, hlong, -⟩ := parse_error h
  · exact hp
  · exact absurd hlong (hshort w n (List.mem_cons_of_mem _ hmeets.mem))

end Short

/-! ### Entries give parameters -/

/-- The key of an entry, unless it has none or an empty one. -/
def Entry.name? (e : Entry) : Option String := e.key?.filter (· ≠ "")

/-- The values of the entries without a name. -/
def unnamed (es : List Entry) : List Value := (es.filter (·.name?.isNone)).map (·.value)

/-- The names and values of the other entries. -/
def named (es : List Entry) : List (String × Value) :=
  es.filterMap fun e => e.name?.map (·, e.value)

theorem collect_eq {es : List Entry} (h : ∀ e ∈ es, ∀ k ∈ e.key?, Text.lowered k = k) :
    collect es = ⟨unnamed es, Keyed.ofList (named es)⟩ := by
  induction es using List.reverseRecOn with
  | nil => rfl
  | append_singleton es e ih =>
    rw [List.forall_mem_append] at h
    obtain ⟨key?, v⟩ := e
    cases key? with
    | none =>
      have hadd : collect (es ++ [⟨none, v⟩]) = (collect es).add v := by
        rw [collect, List.foldl_append]
        rfl
      rw [hadd, ih h.1]
      simp [Parameters.add, unnamed, named, Entry.name?]
    | some k =>
      have hset : collect (es ++ [⟨some k, v⟩])
          = if k.isEmpty then (collect es).add v else (collect es).set k v := by
        rw [collect, List.foldl_append]
        rfl
      rw [hset, ih h.1]
      by_cases hk : k = ""
      · simp [Parameters.add, unnamed, named, Entry.name?, hk]
      · have hlower : Text.lowered k = k := h.2 _ List.mem_cons_self k rfl
        simp [Parameters.set, unnamed, named, Entry.name?, hk, hlower, Keyed.ofList_concat]

theorem lowered_of_means {ps : List Phrase} {es : List Entry}
    (h : List.Forall₂ Phrase.Means ps es) : ∀ e ∈ es, ∀ k ∈ e.key?, Text.lowered k = k := by
  induction h with
  | nil =>
    intro e he
    cases he
  | cons hp _ ih =>
    refine List.forall_mem_cons.2 ⟨fun k hk => ?_, ih⟩
    rw [hp.key] at hk
    obtain ⟨a, -, rfl⟩ := Option.map_eq_some_iff.1 hk
    exact Text.lowered_lowered a.text

/-! ### The language of the parser -/

/-- **The parser accepts exactly its grammar.**  Tokens without overlong words are read if and only
if they derive from it, and have a problem otherwise.  What is read are the entries that the
phrases of the derivation mean, in order; of them the parameters hold the values without a name in
order, and every name at its first place with its last value. -/
theorem parse_derives {ts : List Token} (hshort : ∀ w n, .word w ∈ ts → ¬ TooLong w n) :
    ((∃ es, parse ts = .ok es) ↔ ∃ ps, Derives ps ts)
    ∧ ((¬ ∃ ps, Derives ps ts) → ∃ p, parse ts = .error (.problem p)
        ∧ ∀ text, Token.ofText text = .ok ts → evaluate text = .error (.problem p))
    ∧ ∀ ps, Derives ps ts → ∃ es, parse ts = .ok es ∧ List.Forall₂ Phrase.Means ps es
        ∧ (∀ text, Token.ofText text = .ok ts → evaluate text = .ok (collect es))
        ∧ (collect es).positional = unnamed es
        ∧ (collect es).keyed.keys = ((named es).map (·.1)).eraseDups
        ∧ ∀ k, (collect es).keyed.get? k = (named es).reverse.lookup k := by
  have hreads (ps : List Phrase) (hps : Derives ps ts) :
      ∃ es, parse ts = .ok es ∧ List.Forall₂ Phrase.Means ps es := by
    obtain ⟨es, hes⟩ := hps.exists_means hshort
    exact ⟨es, hps.parse hes, hes⟩
  refine ⟨⟨?_, ?_⟩, ?_, ?_⟩
  · rintro ⟨es, hes⟩
    obtain ⟨ps, hps, -⟩ := derives_of_parse hes
    exact ⟨ps, hps⟩
  · rintro ⟨ps, hps⟩
    obtain ⟨es, hes, -⟩ := hreads ps hps
    exact ⟨es, hes⟩
  · intro hnone
    cases hes : parse ts with
    | ok es =>
      obtain ⟨ps, hps, -⟩ := derives_of_parse hes
      exact absurd ⟨ps, hps⟩ hnone
    | error f =>
      obtain ⟨p, rfl⟩ := exists_problem hshort hes
      refine ⟨p, rfl, fun text htext => ?_⟩
      rw [evaluate, htext]
      simp only [hes, bind, Except.bind]
  · intro ps hps
    obtain ⟨es, hes, hmeans⟩ := hreads ps hps
    have hcollect := collect_eq (lowered_of_means hmeans)
    refine ⟨es, hes, hmeans, fun text htext => ?_, ?_, ?_, fun k => ?_⟩
    · rw [evaluate, htext]
      simp only [hes, bind, Except.bind]
      rfl
    · rw [hcollect]
    · rw [hcollect]
      exact Keyed.keys_ofList (named es)
    · rw [hcollect]
      exact Keyed.get?_ofList (named es) k

/-- The tokens of `(A: 1, ('x'), a: 2,)`. -/
def keyTwice : List Token :=
  [.mark .opening, .word "A", .mark .colon, .word "1", .mark .comma, .mark .opening, .literal "x",
    .mark .closing, .mark .comma, .word "a", .mark .colon, .word "2", .mark .comma, .mark .closing]

/-- The derivation of these tokens. -/
def keyTwicePhrases : List Phrase :=
  [⟨some (.word "A"), .atom (.word "1")⟩, ⟨none, .group [.literal "x"]⟩,
    ⟨some (.word "a"), .atom (.word "2")⟩]

theorem derives_keyTwice : Derives keyTwicePhrases keyTwice := by
  have hone : Phrase.Spells ⟨some (.word "A"), .atom (.word "1")⟩ _ := .keyed (.atom rfl)
  have hgroup : Phrase.Spells ⟨none, .group [.literal "x"]⟩ _ :=
    .plain (.group ⟨_, rfl, .single rfl⟩)
  have htwo : Phrase.Spells ⟨some (.word "a"), .atom (.word "2")⟩ _ := .keyed (.atom rfl)
  exact ⟨_, rfl, Tail.trailing (.more hone (.more hgroup (.last htwo)))⟩

theorem parse_derives_keyTwice :
    (∀ w n, .word w ∈ keyTwice → ¬ TooLong w n) ∧ Derives keyTwicePhrases keyTwice
      ∧ ∃ es, parse keyTwice = .ok es ∧ (collect es).positional = [.list [.text "x"]]
        ∧ (collect es).keyed.keys = ["a"] ∧ (collect es).keyed.get? "a" = some (.int 2) := by
  have hshort : ∀ w n, .word w ∈ keyTwice → ¬ TooLong w n := by
    intro w n hw hlong
    have hfew : (Text.lowered w).length ≤ 5 := by
      simp only [keyTwice, List.mem_cons, Token.word.injEq, reduceCtorEq, false_or,
        List.not_mem_nil, or_false] at hw
      obtain rfl | rfl | rfl | rfl := hw <;> decide
    exact hlong.lowered_ne hfew rfl
  refine ⟨hshort, derives_keyTwice, ?_⟩
  obtain ⟨es, hes, -, -, hpos, hkeys, hget⟩ :=
    (parse_derives hshort).2.2 keyTwicePhrases derives_keyTwice
  have hmeans : List.Forall₂ Phrase.Means keyTwicePhrases
      [⟨some "a", .int 1⟩, ⟨none, .list [.text "x"]⟩, ⟨some "a", .int 2⟩] :=
    .cons ⟨rfl, .atom (.word rfl)⟩ (.cons ⟨rfl, .group (.cons (.literal "x") .nil)⟩
      (.cons ⟨rfl, .atom (.word rfl)⟩ .nil))
  cases hes.symm.trans (derives_keyTwice.parse hmeans)
  refine ⟨_, hes, hpos, ?_, ?_⟩
  · rw [hkeys]
    decide
  · rw [hget]
    rfl

end DocDirective.Arguments
