import DocDirective.Proofs.Arguments.Reading
import DocDirective.Proofs.Arguments.Socket

/-!
# Proofs — Arguments — Opaque

What stands between the quotes of a literal is opaque.  Nothing behind the quotes is looked at by
any part of the reading, so a text is read with something else between the quotes as it was, and
its parameters hold that instead (`evaluate_refill`).  A text that is not read may become one that
is: a quote that stands open in front of the literal can be closed from inside
(`refill_closes_open_quote`).
-/

namespace DocDirective.Arguments

/-! ### The entries of a text -/

/-- The text is read as these entries. -/
def ReadAs (text : String) (es : List Entry) : Prop :=
  ∃ ts, Token.ofText text = .ok ts ∧ parse ts = .ok es

theorem ReadAs.evaluate {text : String} {es : List Entry} (h : ReadAs text es) :
    evaluate text = .ok (collect es) := by
  obtain ⟨ts, hts, hes⟩ := h
  rw [Arguments.evaluate, hts]
  simp only [hes, bind, Except.bind]
  rfl

theorem exists_readAs {text : String} {p : Parameters} (h : evaluate text = .ok p) :
    ∃ es, ReadAs text es ∧ p = collect es := by
  obtain ⟨ts, hts, h⟩ := exists_of_bind h
  obtain ⟨es, hes, h⟩ := exists_of_bind h
  cases h
  exact ⟨es, ⟨ts, hts, hes⟩, rfl⟩

theorem ReadAs.lowered {text : String} {es : List Entry} (h : ReadAs text es) :
    ∀ e ∈ es, ∀ k ∈ e.key?, Text.lowered k = k := by
  obtain ⟨ts, -, hes⟩ := h
  obtain ⟨ps, -, hmeans⟩ := derives_of_parse hes
  exact lowered_of_means hmeans

/-! ### Opaque literals -/

/-- The literal stands as a value: no colon follows it. -/
def Site.IsValue (x : Site) : Prop := (Text.trimStart x.back).head? ≠ some Mark.colon.char

/-- No NUL stands outside the literals of the text. -/
def Site.IsClean (x : Site) : Prop := ∀ p ∈ Piece.ofText x.text.toList, p.isClean = true

theorem Site.isClean_around {x : Site} (h : x.IsClean) :
    ∀ p ∈ x.pieces ++ Piece.ofText x.back, p.isClean = true := by
  intro p hp
  refine h p ?_
  rw [x.ofText_text]
  exact (List.mem_append.1 hp).elim (List.mem_append_left _) fun hp =>
    List.mem_append_right _ (List.mem_cons_of_mem _ hp)

/-- A text with a gap in its pieces is read as entries with a gap, if it is read at all. -/
theorem readAs_gap {text : String} {front back : List Piece} {s : String}
    (htext : Piece.ofText text.toList = front ++ .literal s :: back)
    (hclean : ∀ p ∈ front ++ back, p.isClean = true) (hback : Piece.NoColon back)
    {es : List Entry} (h : ReadAs text es) : (∀ p ∈ front, p.isOpenQuote = false)
      ∧ ∃ (before : List Entry) (key? : Option String) (socket : Socket) (after : List Entry),
        es = before ++ ⟨key?, socket.fill s⟩ :: after
        ∧ ∀ (d : String) (text' : String),
          Piece.ofText text'.toList = front ++ .literal d :: back →
          ReadAs text' (before ++ ⟨key?, socket.fill d⟩ :: after) := by
  obtain ⟨ts, hts, hes⟩ := h
  obtain ⟨hquotes, us, vs, hvs, rfl, htokens⟩ := ofText_gap htext hclean hback hts
  obtain ⟨before, key?, socket, after, rfl, hparse⟩ := parse_gap hvs hes
  exact ⟨hquotes, before, key?, socket, after, rfl, fun d text' hd =>
    ⟨_, htokens d text' hd, hparse d⟩⟩

theorem isOpenQuote_of_standsOpen {ps : List Piece} {o : Char} (h : StandsOpen ps o) :
    ∃ p ∈ ps, p.isOpenQuote = true := by
  obtain ⟨ho, before, after, rfl, -⟩ := h
  exact ⟨.char o, List.mem_append_right _ List.mem_cons_self, ho⟩

/-- **Quoted content is opaque.**  Take a literal that stands as a value in a text without NUL
outside its literals, and let any text that can be quoted fill it.  If the text is read, then no
quote stands open in front of the literal, and the text with the literal filled is read as the same
entries but for the value of the literal, which holds what fills it.  So the parameters are the
same but for this value, or altogether where a later entry of its key takes its place.  The other
way round, the text is read if it is with the literal filled, unless this can close a quote of the
other kind that stands open in front. -/
theorem evaluate_refill {x : Site} (hvalue : x.IsValue) (hclean : x.IsClean) :
    (∀ p, evaluate x.text = .ok p → (∀ o, ¬ StandsOpen x.pieces o)
      ∧ ∃ (before : List Entry) (key? : Option String) (socket : Socket) (after : List Entry),
        ReadAs x.text (before ++ ⟨key?, socket.fill x.value⟩ :: after)
        ∧ ∀ c : String, Quotable c.toList →
          ReadAs (x.refill c) (before ++ ⟨key?, socket.fill c⟩ :: after)
          ∧ ∃ p', evaluate (x.refill c) = .ok p'
            ∧ (SameBut (socket.fill x.value) (socket.fill c)
                (Entry.mk key? (socket.fill x.value)).name? p p'
              ∨ Replaced key? after ∧ p' = p))
    ∧ ∀ c : String, Quotable c.toList →
      (∀ o, o ≠ x.quote → StandsOpen x.pieces o → Unclosed x.quote o c.toList) →
      (∃ p', evaluate (x.refill c) = .ok p') → ∃ p, evaluate x.text = .ok p := by
  have hback := Piece.noColon_ofText hvalue
  refine ⟨fun p hp => ?_, fun c hc hopen hread => ?_⟩
  · obtain ⟨es, hes, rfl⟩ := exists_readAs hp
    obtain ⟨hquotes, before, key?, socket, after, rfl, hfill⟩ :=
      readAs_gap x.ofText_text (Site.isClean_around hclean) hback hes
    have hnone : ∀ o, ¬ StandsOpen x.pieces o := by
      intro o ho
      obtain ⟨p, hmem, hquote⟩ := isOpenQuote_of_standsOpen ho
      exact ne_true_of_eq_false (hquotes p hmem) hquote
    refine ⟨hnone, before, key?, socket, after, hes, fun c hc => ?_⟩
    have hrefill := hfill c _ (x.ofText_refill hc fun o _ ho => absurd ho (hnone o))
    exact ⟨hrefill, _, hrefill.evaluate, collect_gap hes.lowered hrefill.lowered⟩
  · obtain ⟨p', hp'⟩ := hread
    obtain ⟨es, hes, -⟩ := exists_readAs hp'
    obtain ⟨-, before, key?, socket, after, -, hfill⟩ :=
      readAs_gap (x.ofText_refill hc hopen) (Site.isClean_around hclean) hback hes
    exact ⟨_, (hfill x.value x.text x.ofText_text).evaluate⟩

theorem Site.isClean_of_notMem {x : Site} (h : nul ∉ x.text.toList) : x.IsClean := by
  intro p hp
  cases p with
  | literal s => rfl
  | char c =>
    have hne : c ≠ nul := fun hc => h (hc ▸ (splits_ofText _).mem_of_char hp)
    simpa [Piece.isClean] using hne

theorem encloses_single {q c : Char} (hc : c ≠ q) (hline : c ≠ '\n') (hbackslash : c ≠ '\\') :
    Encloses q q [c] :=
  (encloses_cons_iff hline fun h => absurd h hc).2 (.nil hbackslash)

/-- The item of the list in `k: ('a', 2), "it's"`. -/
def itemSite : Site where
  front    := "k: (".toList
  quote    := '\x27'
  content  := ['a']
  back     := ", 2), \"it's\"".toList
  pieces   := [.char 'k', .char ':', .char ' ', .char '(']
  isQuote  := rfl
  encloses := encloses_single (by decide) (by decide) (by decide)
  reads    := .char nofun (.char nofun (.char nofun (.char nofun .nil)))

/-- A short text without NUL is read from the tokens of its pieces. -/
theorem evaluate_of_tokens {text : String} (hnul : nul ∉ text.toList)
    (hshort : text.toList.length ≤ 98) {ts : List Token}
    (hts : Piece.tokens (Piece.ofText text.toList) = .ok ts) {es : List Entry}
    (hes : parse (parens ts) = .ok es) : evaluate text = .ok (collect es) := by
  have hfew : ('(' :: text.toList ++ [')']).length ≤ 10 ^ Overlong.limit := by
    refine le_trans ?_ (Nat.pow_le_pow_right (by decide) (show 2 ≤ Overlong.limit by decide))
    simp only [List.cons_append, List.length_cons, List.length_append, List.length_nil]
    omega
  have htokens : Token.ofText text = .ok (parens ts) := by
    rw [Token.ofText, Piece.ofMasked_mask (isClean_parens hnul) hfew, tokens_parens, hts]
    rfl
  exact ReadAs.evaluate ⟨_, htokens, hes⟩

/-- What a text in the place of this item gives. -/
def itemParameters (s : String) : Parameters :=
  ⟨[.text "it's"], .ofList [("k", .list [.text s, .int 2])]⟩

theorem evaluate_refill_itemSite :
    itemSite.IsValue ∧ itemSite.IsClean ∧ evaluate itemSite.text = .ok (itemParameters "a")
      ∧ Quotable "), !b: 'c".toList
      ∧ evaluate (itemSite.refill "), !b: 'c") = .ok (itemParameters "), !b: 'c")
      ∧ ∃ (socket : Socket) (name? : Option String), SameBut (socket.fill "a")
        (socket.fill "), !b: 'c") name? (itemParameters "a") (itemParameters "), !b: 'c") := by
  have hvalue : itemSite.IsValue := by
    unfold Site.IsValue
    decide
  have hclean : itemSite.IsClean := Site.isClean_of_notMem (by decide)
  -- both texts derive in the same way
  have hparse (s : String) : parse (parens [.word "k", .mark .colon, .mark .opening, .literal s,
      .mark .comma, .word "2", .mark .closing, .mark .comma, .literal "it's"])
        = .ok [⟨some "k", .list [.text s, .int 2]⟩, ⟨none, .text "it's"⟩] := by
    have hlist : Phrase.Spells ⟨some (.word "k"), .group [.literal s, .word "2"]⟩ _ :=
      .keyed (.group ⟨_, rfl, .row (.more rfl (.last rfl))⟩)
    have htext : Phrase.Spells ⟨none, .atom (.literal "it's")⟩ _ := .plain (.atom rfl)
    exact Derives.parse ⟨_, rfl, .row (.more hlist (.last htext))⟩
      (.cons ⟨rfl, .group (.cons (.literal s) (.cons (.word rfl) .nil))⟩
        (.cons ⟨rfl, .atom (.literal _)⟩ .nil))
  have hread : evaluate itemSite.text = .ok (itemParameters "a") :=
    evaluate_of_tokens (by decide) (by decide) (by with_unfolding_all rfl) (hparse "a")
  have hrefill : evaluate (itemSite.refill "), !b: 'c") = .ok (itemParameters "), !b: 'c") :=
    evaluate_of_tokens (by decide) (by decide) (by with_unfolding_all rfl) (hparse "), !b: 'c")
  have hc : Quotable "), !b: 'c".toList := ⟨by decide, by decide⟩
  refine ⟨hvalue, hclean, hread, hc, hrefill, ?_⟩
  obtain ⟨-, before, key?, socket, after, -, hfill⟩ :=
    (evaluate_refill hvalue hclean).1 _ hread
  obtain ⟨-, p', hp', hsame⟩ := hfill _ hc
  cases hp'.symm.trans hrefill
  obtain hsame | ⟨-, heq⟩ := hsame
  · exact ⟨socket, _, hsame⟩
  · -- the two parameters are not the same
    have hget := congrArg (fun p => p.keyed.entries) heq
    simp [itemParameters, Keyed.ofList, Keyed.insertAll, Keyed.insert, Keyed.assign,
      Keyed.empty] at hget

/-! ### A quote that the content closes -/

/-- The literal in `",'b',d'`, where a quote of each kind stands open. -/
def openSite : Site where
  front    := "\",".toList
  quote    := '\x27'
  content  := ['b']
  back     := ",d'".toList
  pieces   := [.char '\x22', .char ',']
  isQuote  := rfl
  encloses := encloses_single (by decide) (by decide) (by decide)
  reads    := .char (fun h => (unclosed_iff_of_isQuote h).2 rfl) (.char nofun .nil)

/-- A text that is not read can become one that is: what fills a literal may close a quote that
stands open in front of it. -/
theorem refill_closes_open_quote : ¬ ∀ (x : Site) (c : String), x.IsValue → x.IsClean →
    Quotable c.toList → ((∃ p, evaluate (x.refill c) = .ok p) ↔ ∃ p, evaluate x.text = .ok p) := by
  intro h
  have hvalue : openSite.IsValue := by
    unfold Site.IsValue
    decide
  have hclean : openSite.IsClean := Site.isClean_of_notMem (by decide)
  have hparse : parse (parens [.literal ",'x", .mark .comma, .literal ",d"])
      = .ok [⟨none, .text ",'x"⟩, ⟨none, .text ",d"⟩] := by
    have hspells (s : String) : Phrase.Spells ⟨none, .atom (.literal s)⟩ _ := .plain (.atom rfl)
    exact Derives.parse ⟨_, rfl, .row (.more (hspells _) (.last (hspells _)))⟩
      (.cons ⟨rfl, .atom (.literal _)⟩ (.cons ⟨rfl, .atom (.literal _)⟩ .nil))
  have hrefill : evaluate (openSite.refill "x\",") = .ok ⟨[.text ",'x", .text ",d"], .empty⟩ :=
    evaluate_of_tokens (by decide) (by decide) (by with_unfolding_all rfl) hparse
  obtain ⟨p, hp⟩ := (h openSite "x\"," hvalue hclean ⟨by decide, by decide⟩).1 ⟨_, hrefill⟩
  obtain ⟨es, hes, -⟩ := exists_readAs hp
  obtain ⟨hquotes, -⟩ := readAs_gap openSite.ofText_text (Site.isClean_around hclean)
    (Piece.noColon_ofText hvalue) hes
  exact absurd (hquotes (.char '\x22') List.mem_cons_self) (by decide)

end DocDirective.Arguments
