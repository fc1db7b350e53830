import DocDirective.Proofs.Arguments.Bareword
import DocDirective.Proofs.Arguments.Opaque

/-!
# Proofs — Arguments — Requoting

A bareword means its quoted form.  Tokens with a literal in the place of a word (`Requoted`) are
spelled by trees of the same meaning, if the word is a key or has its own text for a value; so they
are read as the same entries (`Requoted.parse`), and a text with quotes around such a word has the
same parameters (`evaluate_quoted`).
-/

namespace DocDirective.Arguments

/-! ### Tokens with a word quoted -/

/-- The second tokens are the first with a literal in the place of one word, or of none.  The word
is a key, or has its own text for a value. -/
inductive Requoted (w : String) : List Token → List Token → Prop
  | same (ts : List Token) : Requoted w ts ts
  | key (us : List Token) :
      Requoted w (.word w :: .mark .colon :: us) (.literal w :: .mark .colon :: us)
  | value (h : wordValue w = .ok (.text w)) (us : List Token) :
      Requoted w (.word w :: us) (.literal w :: us)
  | keep (t : Token) {us vs : List Token} (h : Requoted w us vs) : Requoted w (t :: us) (t :: vs)

namespace Requoted

variable {w : String}

theorem nil {vs : List Token} (h : Requoted w [] vs) : vs = [] := by
  cases h
  rfl

theorem mark_cons {m : Mark} {us vs : List Token} (h : Requoted w (.mark m :: us) vs) :
    ∃ us', vs = .mark m :: us' ∧ Requoted w us us' := by
  cases h with
  | same => exact ⟨us, rfl, .same us⟩
  | keep _ h => exact ⟨_, rfl, h⟩

/-- A mark that is no colon parts the word from what is no neighbour of it. -/
theorem append_mark {m : Mark} (hm : m ≠ .colon) {ts us vs : List Token}
    (h : Requoted w (ts ++ .mark m :: us) vs) :
    ∃ ts' us', vs = ts' ++ .mark m :: us' ∧ Requoted w ts ts' ∧ Requoted w us us' := by
  induction ts generalizing vs with
  | nil =>
    obtain ⟨us', rfl, hus⟩ := h.mark_cons
    exact ⟨[], us', rfl, .same [], hus⟩
  | cons t ts ih =>
    generalize htext : t :: ts ++ .mark m :: us = text at h
    cases h with
    | same =>
      subst htext
      exact ⟨t :: ts, us, rfl, .same _, .same us⟩
    | key xs =>
      cases ts with
      | nil =>
        cases htext
        exact absurd rfl hm
      | cons t' ts =>
        cases htext
        exact ⟨_, us, rfl, .key ts, .same us⟩
    | value hw xs =>
      cases htext
      exact ⟨_, us, rfl, .value hw ts, .same us⟩
    | keep _ h =>
      cases htext
      obtain ⟨ts', us', rfl, hts, hus⟩ := ih h
      exact ⟨_, us', rfl, .keep t hts, hus⟩

end Requoted

/-! ### Trees with a word quoted -/

/-- What is spelled with tokens is spelled, as something of the same meaning, with a word of them
quoted. -/
def KeepsMeaning {α β : Type} (w : String) (Spells : α → List Token → Prop)
    (Means : α → β → Prop) : Prop :=
  ∀ a us vs, Spells a us → Requoted w us vs → ∃ a', Spells a' vs ∧ ∀ b, Means a b → Means a' b

theorem Tail.requoted {α β : Type} {w : String} {Spells : α → List Token → Prop}
    {Means : α → β → Prop} (hkeeps : KeepsMeaning w Spells Means) :
    KeepsMeaning w (Tail Spells) (List.Forall₂ Means) := by
  intro as us vs h hvs
  induction h using Tail.induct generalizing vs with
  | nil =>
    obtain ⟨us', rfl, hnil⟩ := hvs.mark_cons
    obtain rfl := hnil.nil
    exact ⟨[], .empty, fun _ h => h⟩
  | single h =>
    obtain ⟨ts', us', rfl, hts, hnil⟩ := hvs.append_mark (by decide)
    obtain rfl := hnil.nil
    obtain ⟨a', ha', hmeans⟩ := hkeeps _ _ _ h hts
    refine ⟨[a'], .single ha', fun bs hbs => ?_⟩
    obtain _ | ⟨hb, hbs⟩ := hbs
    cases hbs
    exact .cons (hmeans _ hb) .nil
  | cons h _ ih =>
    obtain ⟨ts', us', rfl, hts, hus⟩ := hvs.append_mark (by decide)
    obtain ⟨a', ha', hmeans⟩ := hkeeps _ _ _ h hts
    obtain ⟨as', has', htail⟩ := ih _ hus
    refine ⟨a' :: as', .cons ha' has', fun bs hbs => ?_⟩
    obtain _ | ⟨hb, hbs⟩ := hbs
    exact .cons (hmeans _ hb) (htail _ hbs)

theorem keepsMeaning_atom (w : String) : KeepsMeaning w Atom.Spells Atom.Means := by
  intro a us vs h hvs
  obtain rfl := h
  generalize hus : [a.token] = us at hvs
  cases hvs with
  | same => exact ⟨a, hus.symm, fun _ h => h⟩
  | key us => cases a <;> cases hus
  | value hw us =>
    cases a with
    | literal s => cases hus
    | word w' =>
      cases hus
      refine ⟨.literal w, rfl, fun v hv => ?_⟩
      obtain _ | hv := hv
      cases hw.symm.trans hv
      exact .literal w
  | keep t h =>
    cases hus
    rw [h.nil]
    exact ⟨a, rfl, fun _ h => h⟩

theorem keepsMeaning_operand (w : String) : KeepsMeaning w Operand.Spells Operand.Means := by
  intro o us vs h hvs
  cases h with
  | atom h =>
    obtain ⟨a', ha', hmeans⟩ := keepsMeaning_atom w _ _ _ h hvs
    refine ⟨.atom a', .atom ha', fun v hv => ?_⟩
    obtain ⟨hv⟩ := hv
    exact .atom (hmeans _ hv)
  | group h =>
    obtain ⟨us, rfl, htail⟩ := h
    obtain ⟨us', rfl, hus⟩ := hvs.mark_cons
    obtain ⟨as', has', hmeans⟩ := Tail.requoted (keepsMeaning_atom w) _ _ _ htail hus
    refine ⟨.group as', .group ⟨us', rfl, has'⟩, fun v hv => ?_⟩
    obtain _ | ⟨hvs⟩ := hv
    exact .group (hmeans _ hvs)

theorem keepsMeaning_phrase (w : String) : KeepsMeaning w Phrase.Spells Phrase.Means := by
  intro p us vs h hvs
  cases h with
  | plain h =>
    obtain ⟨o', ho', hmeans⟩ := keepsMeaning_operand w _ _ _ h hvs
    exact ⟨⟨none, o'⟩, .plain ho', fun e he => ⟨he.key, hmeans _ he.value⟩⟩
  | @keyed k o us h =>
    generalize hts : k.token :: .mark .colon :: us = ts at hvs
    -- the key is the word itself, or what is quoted stands in the operand
    have hkey (hk : k.token = .word w) : ∃ p', Phrase.Spells p' (.literal w :: .mark .colon :: us)
        ∧ ∀ e, Phrase.Means ⟨some k, o⟩ e → Phrase.Means p' e := by
      cases k <;> cases hk
      exact ⟨⟨some (.literal w), o⟩, .keyed h, fun e he => ⟨he.key, he.value⟩⟩
    cases hvs with
    | same =>
      subst hts
      exact ⟨_, .keyed h, fun _ he => he⟩
    | key xs =>
      simp only [List.cons.injEq, true_and] at hts
      obtain ⟨hk, rfl⟩ := hts
      exact hkey hk
    | value hw xs =>
      simp only [List.cons.injEq] at hts
      obtain ⟨hk, rfl⟩ := hts
      exact hkey hk
    | keep t hrest =>
      simp only [List.cons.injEq] at hts
      obtain ⟨rfl, rfl⟩ := hts
      obtain ⟨us', rfl, hus⟩ := hrest.mark_cons
      obtain ⟨o', ho', hmeans⟩ := keepsMeaning_operand w _ _ _ h hus
      exact ⟨⟨some k, o'⟩, .keyed ho', fun e he => ⟨he.key, hmeans _ he.value⟩⟩

/-- Tokens with a word quoted are read as the same entries. -/
theorem Requoted.parse {w : String} {ts us : List Token} (h : Requoted w ts us) {es : List Entry}
    (hes : parse ts = .ok es) : Arguments.parse us = .ok es := by
  obtain ⟨ps, ⟨ts, rfl, htail⟩, hmeans⟩ := derives_of_parse hes
  obtain ⟨us, rfl, hus⟩ := h.mark_cons
  obtain ⟨ps', hps', hkeeps⟩ := Tail.requoted (keepsMeaning_phrase w) _ _ _ htail hus
  exact Derives.parse ⟨us, rfl, hps'⟩ (hkeeps _ hmeans)

/-! ### Texts with a word quoted -/

/-- A word that stands for its own text: it is neither a truth value nor a numeral. -/
structure IsTextual (w : String) : Prop where
  noTrue    : Text.lowered w ≠ "true"
  noFalse   : Text.lowered w ≠ "false"
  noNumeral : Numeral.read? w.toList = none

theorem IsTextual.wordValue {w : String} (h : IsTextual w) : wordValue w = .ok (.text w) := by
  simp only [Arguments.wordValue, if_neg h.noTrue, if_neg h.noFalse, h.noNumeral]

theorem Requoted.append (us : List Token) {w : String} {ts vs : List Token} (h : Requoted w ts vs) :
    Requoted w (us ++ ts) (us ++ vs) := by
  induction us with
  | nil => exact h
  | cons u us ih => exact .keep u ih

namespace WordSite

/-- With quotes around a word that is a key or stands for its own text, the tokens of the text are
requoted. -/
theorem requoted {x : WordSite} (us : List Token) {vs : List Token}
    (hvs : Piece.tokens (Piece.ofText x.after) = .ok vs)
    (h : x.IsKey ∨ IsTextual (String.ofList x.word)) :
    Requoted (String.ofList x.word) (parens (us ++ .word (String.ofList x.word) :: vs))
      (parens (us ++ .literal (String.ofList x.word) :: vs)) := by
  have hword : Requoted (String.ofList x.word)
      (.word (String.ofList x.word) :: (vs ++ [.mark .closing]))
      (.literal (String.ofList x.word) :: (vs ++ [.mark .closing])) := by
    obtain hkey | htextual := h
    · obtain ⟨us, rfl⟩ := hkey.head?_tokens hvs
      exact .key _
    · exact .value htextual.wordValue _
  have happend := hword.append (.mark .opening :: us)
  simpa [parens] using happend

theorem literalCount_quoted {x : WordSite} (hclosed : ∀ p ∈ x.pieces, p.isOpenQuote = false)
    (hw : Quotable x.word) : literalCount x.quoted = literalCount x.text + 1 := by
  simp only [literalCount, ofText_quoted hclosed hw, x.ofText_text, Piece.literals_append,
    literals_map_char, Piece.literals, List.length_append, List.length_cons, List.length_nil]
  omega

theorem nul_notMem_quoted {x : WordSite} (h : nul ∉ x.text.toList) :
    nul ∉ x.quoted.toList := by
  rw [text, String.toList_ofList] at h
  rw [quoted, String.toList_ofList]
  have hquote : nul ≠ '\x27' := by decide
  simp_all

end WordSite

/-- **A bareword means its quoted form.**  Every word among the tokens of a text without NUL is at a
site of the text.  If the text is read, and the word there can be quoted and is a key or stands for
its own text, then the text with single quotes around the word has the same parameters.  The
literals of the text, with the new one among them, have to be few enough to be numbered. -/
theorem evaluate_quoted {text : String} (hnul : nul ∉ text.toList) {p : Parameters}
    (hp : evaluate text = .ok p) :
    (∀ us w vs, Token.ofText text = .ok (parens (us ++ .word w :: vs)) →
      ∃ x : WordSite, x.text = text ∧ String.ofList x.word = w ∧ Piece.tokens x.pieces = .ok us
        ∧ Piece.tokens (Piece.ofText x.after) = .ok vs)
    ∧ ∀ x : WordSite, x.text = text → Quotable x.word →
      (x.IsKey ∨ IsTextual (String.ofList x.word)) →
      (literalCount text < 10 ^ Overlong.limit → evaluate x.quoted = .ok p)
        ∧ (10 ^ Overlong.limit ≤ literalCount text →
          ∃ o, evaluate x.quoted = .error (.overlong o)) := by
  refine ⟨fun us w vs h => ?_, ?_⟩
  · obtain ⟨-, ts, hts, heq⟩ := (ofText_eq_ok_iff hnul).1 h
    rw [← parens_inj heq] at hts
    exact exists_wordSite hts
  · rintro x rfl hw hmeans
    obtain ⟨es, ⟨ts, hts, hes⟩, rfl⟩ := exists_readAs hp
    obtain ⟨-, ts, htokens, rfl⟩ := (ofText_eq_ok_iff hnul).1 hts
    rw [x.tokens_text] at htokens
    obtain ⟨us, hus, htokens⟩ := exists_of_bind htokens
    obtain ⟨vs, hvs, htokens⟩ := exists_of_bind htokens
    cases htokens
    have hclosed : ∀ p ∈ x.pieces, p.isOpenQuote = false :=
      fun p hp => Piece.isOpenQuote_of_tokens hus hp
    have hquoted : Piece.tokens (Piece.ofText x.quoted.toList)
        = .ok (us ++ .literal (String.ofList x.word) :: vs) := by
      rw [WordSite.tokens_quoted hclosed hw, hus, hvs]
      rfl
    have hparse := (WordSite.requoted us hvs hmeans).parse hes
    have hnul' := WordSite.nul_notMem_quoted hnul
    have hcount := WordSite.literalCount_quoted hclosed hw
    refine ⟨fun hfew => ?_, fun hmany => ?_⟩
    · exact ReadAs.evaluate ⟨_, (ofText_eq_ok_iff hnul').2 ⟨by omega, _, hquoted, rfl⟩, hparse⟩
    · obtain ⟨o, ho⟩ := ofText_overlong hnul' hquoted (by omega)
      exact ⟨o, by rw [evaluate, ho]; rfl⟩

/-- The first item of the list in `Key : (a b, 2)`. -/
def itemWord : WordSite where
  before := "Key : (".toList
  word   := "a b".toList
  after  := ", 2)".toList
  pieces := "Key : (".toList.map .char
  isWord := ⟨by decide, by decide, by simp [Mark.ofChar?, isQuote]⟩
  reads  := .char nofun (.char nofun (.char nofun (.char nofun (.char nofun (.char nofun
    (.char nofun .nil))))))
  start  := by
    rintro p ⟨⟩
    exact ⟨.opening, rfl⟩
  stop   := by
    rw [show ", 2)".toList = Mark.comma.char :: " 2)".toList from rfl, ofText_mark]
    rintro p ⟨⟩
    exact ⟨.comma, rfl⟩

theorem evaluate_quoted_itemWord :
    nul ∉ itemWord.text.toList ∧ Quotable itemWord.word
      ∧ evaluate itemWord.text = .ok ⟨[], .ofList [("key", .list [.text "a b", .int 2])]⟩
      ∧ itemWord.quoted = "Key : ('a b', 2)"
      ∧ evaluate itemWord.quoted
        = .ok ⟨[], .ofList [("key", .list [.text "a b", .int 2])]⟩ := by
  have hnul : nul ∉ itemWord.text.toList := by decide
  have hw : Quotable itemWord.word := ⟨by decide, by decide⟩
  have hparse : parse (parens [.word "Key", .mark .colon, .mark .opening, .word "a b",
      .mark .comma, .word "2", .mark .closing])
        = .ok [⟨some "key", .list [.text "a b", .int 2]⟩] := by
    have hlist : Phrase.Spells ⟨some (.word "Key"), .group [.word "a b", .word "2"]⟩ _ :=
      .keyed (.group ⟨_, rfl, .row (.more rfl (.last rfl))⟩)
    exact Derives.parse ⟨_, rfl, .row (.last hlist)⟩
      (.cons ⟨rfl, .group (.cons (.word rfl) (.cons (.word rfl) .nil))⟩ .nil)
  have hread : evaluate itemWord.text
      = .ok ⟨[], .ofList [("key", .list [.text "a b", .int 2])]⟩ :=
    evaluate_of_tokens hnul (by decide) (by with_unfolding_all rfl) hparse
  have htextual : IsTextual (String.ofList itemWord.word) := ⟨by decide, by decide, rfl⟩
  have hfew : literalCount itemWord.text < 10 ^ Overlong.limit :=
    (Piece.length_literals_le _).trans_lt
      ((show _ < 10 ^ 2 by decide).trans_le (Nat.pow_le_pow_right (by decide) (by decide)))
  exact ⟨hnul, hw, hread, rfl,
    ((evaluate_quoted hnul hread).2 itemWord rfl hw (.inr htextual)).1 hfew⟩

end DocDirective.Arguments
