import DocDirective.Proofs.Arguments.Numbering
import DocDirective.Proofs.Arguments.Opaque

/-!
# Proofs — Arguments — Concatenation

Argument lists are put together with a comma.  No quote stands open in a text that is read, so no
literal reaches from one text into another behind it; the tokens of both stand on the two sides of
the comma, and the phrases of the second follow those of the first.  The parameters of both texts
together are those of the first with those of the second written into them
(`evaluate_append_comma`).
-/

namespace DocDirective

/-- Parameters with others written into them: values without a key go to the end, and a key that is
there already keeps its place. -/
def Parameters.update (p q : Parameters) : Parameters :=
  ⟨p.positional ++ q.positional, p.keyed.insertAll q.keyed.entries⟩

theorem Parameters.update_empty (p : Parameters) : p.update .empty = p :=
  congrArg (Parameters.mk · p.keyed) (List.append_nil p.positional)

namespace Arguments

/-! ### Entries -/

theorem unnamed_append (es fs : List Entry) : unnamed (es ++ fs) = unnamed es ++ unnamed fs := by
  simp [unnamed]

theorem named_append (es fs : List Entry) : named (es ++ fs) = named es ++ named fs :=
  List.filterMap_append

/-- The parameters of two rows of entries together are those of the second written into those of
the first. -/
theorem collect_append {es fs : List Entry} (hes : ∀ e ∈ es, ∀ k ∈ e.key?, Text.lowered k = k)
    (hfs : ∀ e ∈ fs, ∀ k ∈ e.key?, Text.lowered k = k) :
    collect (es ++ fs) = (collect es).update (collect fs) := by
  have hkeyed : Keyed.ofList (named es ++ named fs)
      = (Keyed.ofList (named es)).insertAll (Keyed.ofList (named fs)).entries := by
    rw [Keyed.insertAll_ofList, Keyed.ofList, Keyed.insertAll, List.foldl_append]
    rfl
  rw [collect_eq (List.forall_mem_append.2 ⟨hes, hfs⟩), collect_eq hes, collect_eq hfs,
    unnamed_append, named_append, hkeyed]
  rfl

/-! ### Phrases -/

theorem Tail.append_row {α : Type} {Spells : α → List Token → Prop} {as bs : List α}
    {ts us : List Token} (h : Row Spells as ts) (tail : Tail Spells bs us) :
    Tail Spells (as ++ bs) (ts ++ .mark .comma :: us) := by
  induction h with
  | last h => exact .cons h tail
  | more h _ ih =>
    rw [List.append_assoc]
    exact .cons h ih

/-- Tokens that are read as entries, and do not end in a comma, are a row of phrases. -/
theorem row_of_parse {ts : List Token} {es : List Entry} (h : parse (parens ts) = .ok es)
    (hes : es ≠ []) (hlast : ts.getLast? ≠ some (.mark .comma)) :
    ∃ ps, Row Phrase.Spells ps ts ∧ List.Forall₂ Phrase.Means ps es := by
  obtain ⟨ps, ⟨us, hus, htail⟩, hmeans⟩ := derives_of_parse h
  refine ⟨ps, ?_, hmeans⟩
  obtain rfl : ts ++ [.mark .closing] = us := (List.cons.inj hus).2
  generalize hvs : ts ++ [.mark .closing] = vs at htail
  cases htail with
  | empty =>
    cases hmeans
    exact absurd rfl hes
  | row hrow =>
    obtain ⟨rfl, -⟩ := List.append_inj' hvs rfl
    exact hrow
  | @trailing _ us hrow =>
    rw [List.append_cons us] at hvs
    obtain ⟨rfl, -⟩ := List.append_inj' hvs rfl
    exact absurd List.getLast?_concat hlast

theorem parse_append {ts us : List Token} {es fs : List Entry} (hts : parse (parens ts) = .ok es)
    (hus : parse (parens us) = .ok fs) (hes : es ≠ [])
    (hlast : ts.getLast? ≠ some (.mark .comma)) :
    parse (parens (ts ++ .mark .comma :: us)) = .ok (es ++ fs) := by
  obtain ⟨ps, hrow, hps⟩ := row_of_parse hts hes hlast
  obtain ⟨qs, ⟨vs, hvs, htail⟩, hqs⟩ := derives_of_parse hus
  obtain rfl : us ++ [.mark .closing] = vs := (List.cons.inj hvs).2
  refine Derives.parse ⟨_, ?_, .append_row hrow htail⟩ (List.rel_append hps hqs)
  simp [parens]

/-! ### Texts -/

section Texts

variable {a b : String} {ts us : List Token}
  (hts : Piece.tokens (Piece.ofText a.toList) = .ok ts)

include hts

theorem ofText_append_comma : Piece.ofText (a ++ "," ++ b).toList
    = Piece.ofText a.toList ++ .char Mark.comma.char :: Piece.ofText b.toList := by
  rw [String.toList_append, String.toList_append, List.append_assoc,
    ofText_append_of_closed fun p hp => Piece.isOpenQuote_of_tokens hts hp]
  exact congrArg _ (ofText_mark .comma b.toList)

theorem literalCount_append_comma :
    literalCount (a ++ "," ++ b) = literalCount a + literalCount b := by
  rw [literalCount, ofText_append_comma hts, Piece.literals_append, List.length_append]
  rfl

theorem tokens_append_comma (hus : Piece.tokens (Piece.ofText b.toList) = .ok us) :
    Piece.tokens (Piece.ofText (a ++ "," ++ b).toList) = .ok (ts ++ .mark .comma :: us) := by
  rw [ofText_append_comma hts, Piece.tokens_append_mark, hts, hus]
  rfl

end Texts

theorem nul_notMem_append_comma {a b : String} (ha : nul ∉ a.toList) (hb : nul ∉ b.toList) :
    nul ∉ (a ++ "," ++ b).toList := by
  rw [String.toList_append, String.toList_append, List.mem_append, List.mem_append, not_or, not_or]
  exact ⟨⟨ha, by decide⟩, hb⟩

/-- A text of blanks has neither tokens nor literals. -/
theorem tokens_of_isBlankText {b : String} (hb : Text.isBlankText b = true) :
    Piece.tokens (Piece.ofText b.toList) = .ok [] ∧ literalCount b = 0 := by
  rw [Text.isBlankText, List.all_eq_true] at hb
  have hpieces := ofText_append (fun c hc => Piece.isQuote_of_isBlank (hb c hc)) []
  rw [Piece.ofText, List.append_nil, List.append_nil] at hpieces
  rw [literalCount, hpieces, literals_map_char]
  exact ⟨Piece.tokens_blank (List.forall_mem_map.2 hb), rfl⟩

theorem parse_parens_nil : parse (parens []) = .ok [] := Derives.parse ⟨_, rfl, .empty⟩ .nil

/-- **Argument lists concatenate.**  Two texts without NUL that are read are read together, with a
comma between them, if the first has an entry and does not end in a comma: the parameters are those
of the first with those of the second written into them.  With blanks only behind the comma, they
are those of the first.  The literals of both texts have to be few enough to be numbered. -/
theorem evaluate_append_comma {a b : String} (ha : nul ∉ a.toList) (hb : nul ∉ b.toList)
    {p q : Parameters} (hp : evaluate a = .ok p) (hq : evaluate b = .ok q) (hsize : 0 < p.size)
    (hlast : ∀ ts, Token.ofText a = .ok (parens ts) → ts.getLast? ≠ some (.mark .comma)) :
    (literalCount a + literalCount b ≤ 10 ^ Overlong.limit →
        evaluate (a ++ "," ++ b) = .ok (p.update q))
      ∧ (10 ^ Overlong.limit < literalCount a + literalCount b →
        ∃ o, evaluate (a ++ "," ++ b) = .error (.overlong o))
      ∧ (Text.isBlankText b = true → evaluate (a ++ "," ++ b) = .ok p)
      ∧ (p.update q).positional = p.positional ++ q.positional
      ∧ (p.update q).keyed.keys = p.keyed.keys ++ q.keyed.keys.filter (· ∉ p.keyed.keys)
      ∧ ∀ k, (p.update q).keyed.get? k = (q.keyed.get? k).or (p.keyed.get? k) := by
  obtain ⟨es, ⟨ts, hts, hes⟩, rfl⟩ := exists_readAs hp
  obtain ⟨fs, ⟨us, hus, hfs⟩, rfl⟩ := exists_readAs hq
  obtain ⟨hfew, ts, htokens, rfl⟩ := (ofText_eq_ok_iff ha).1 hts
  obtain ⟨-, us, husk, rfl⟩ := (ofText_eq_ok_iff hb).1 hus
  have hnul := nul_notMem_append_comma ha hb
  have hcount := literalCount_append_comma (b := b) htokens
  have hboth := tokens_append_comma htokens husk
  have hne : es ≠ [] := by
    rintro rfl
    exact absurd hsize (by decide)
  have hread (h : literalCount a + literalCount b ≤ 10 ^ Overlong.limit) :
      evaluate (a ++ "," ++ b) = .ok ((collect es).update (collect fs)) := by
    rw [← collect_append (ReadAs.lowered ⟨_, hts, hes⟩) (ReadAs.lowered ⟨_, hus, hfs⟩)]
    exact ReadAs.evaluate ⟨_, (ofText_eq_ok_iff hnul).2 ⟨hcount ▸ h, _, hboth, rfl⟩,
      parse_append hes hfs hne (hlast ts hts)⟩
  refine ⟨hread, fun hmany => ?_, fun hblank => ?_, rfl, Keyed.keys_insertAll _ _,
    Keyed.get?_insertAll _ _⟩
  · obtain ⟨o, ho⟩ := ofText_overlong hnul hboth (hcount ▸ hmany)
    exact ⟨o, by rw [evaluate, ho]; rfl⟩
  · -- the text behind the comma has no tokens, hence no entries
    obtain ⟨hnone, hcountb⟩ := tokens_of_isBlankText hblank
    cases hnone.symm.trans husk
    cases parse_parens_nil.symm.trans hfs
    rw [hread (by rwa [hcountb]), show collect [] = .empty from rfl, Parameters.update_empty]

/-- A key of both texts keeps the place of the first and takes the value of the second. -/
theorem evaluate_append_comma_clash :
    evaluate "x, K: 1" = .ok ⟨[.text "x"], .ofList [("k", .int 1)]⟩
      ∧ evaluate "n: 2, k: 'y'" = .ok ⟨[], .ofList [("n", .int 2), ("k", .text "y")]⟩
      ∧ evaluate ("x, K: 1" ++ "," ++ "n: 2, k: 'y'")
        = .ok ⟨[.text "x"], .ofList [("k", .text "y"), ("n", .int 2)]⟩ := by
  have ha : nul ∉ "x, K: 1".toList := by decide
  have hb : nul ∉ "n: 2, k: 'y'".toList := by decide
  have htokens : Piece.tokens (Piece.ofText "x, K: 1".toList)
      = .ok [.word "x", .mark .comma, .word "K", .mark .colon, .word "1"] := by
    with_unfolding_all rfl
  have hparse : parse (parens [.word "x", .mark .comma, .word "K", .mark .colon, .word "1"])
      = .ok [⟨none, .text "x"⟩, ⟨some "k", .int 1⟩] := by
    have hx : Phrase.Spells ⟨none, .atom (.word "x")⟩ _ := .plain (.atom rfl)
    have hk : Phrase.Spells ⟨some (.word "K"), .atom (.word "1")⟩ _ := .keyed (.atom rfl)
    exact Derives.parse ⟨_, rfl, .row (.more hx (.last hk))⟩
      (.cons ⟨rfl, .atom (.word rfl)⟩ (.cons ⟨rfl, .atom (.word rfl)⟩ .nil))
  have hparse' : parse (parens [.word "n", .mark .colon, .word "2", .mark .comma, .word "k",
      .mark .colon, .literal "y"]) = .ok [⟨some "n", .int 2⟩, ⟨some "k", .text "y"⟩] := by
    have hn : Phrase.Spells ⟨some (.word "n"), .atom (.word "2")⟩ _ := .keyed (.atom rfl)
    have hk : Phrase.Spells ⟨some (.word "k"), .atom (.literal "y")⟩ _ := .keyed (.atom rfl)
    exact Derives.parse ⟨_, rfl, .row (.more hn (.last hk))⟩
      (.cons ⟨rfl, .atom (.word rfl)⟩ (.cons ⟨rfl, .atom (.literal "y")⟩ .nil))
  have hp : evaluate "x, K: 1" = .ok ⟨[.text "x"], .ofList [("k", .int 1)]⟩ :=
    evaluate_of_tokens ha (by decide) htokens hparse
  have hq : evaluate "n: 2, k: 'y'" = .ok ⟨[], .ofList [("n", .int 2), ("k", .text "y")]⟩ :=
    evaluate_of_tokens hb (by decide) (by with_unfolding_all rfl) hparse'
  have hfew : literalCount "x, K: 1" + literalCount "n: 2, k: 'y'" ≤ 10 ^ Overlong.limit :=
    (Nat.add_le_add (Piece.length_literals_le _) (Piece.length_literals_le _)).trans
      ((show _ ≤ 10 ^ 2 by decide).trans (Nat.pow_le_pow_right (by decide) (by decide)))
  refine ⟨hp, hq, (evaluate_append_comma ha hb hp hq (by decide) fun ts hts => ?_).1 hfew⟩
  obtain ⟨-, us, hus, heq⟩ := (ofText_eq_ok_iff ha).1 hts
  cases hus.symm.trans htokens
  rw [parens_inj heq]
  decide

end Arguments

end DocDirective
