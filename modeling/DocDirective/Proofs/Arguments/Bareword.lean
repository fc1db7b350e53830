import DocDirective.Proofs.Arguments.Reading
import DocDirective.Proofs.Arguments.Numbering

/-!
# Proofs — Arguments — Bareword

Where the words of a text stand.  A word fills, but for blanks, the run between two marks outside
the literals (`WordSite`).  What stands on its two sides is read by itself, so the tokens of the
text are those in front, the word, and those behind (`WordSite.tokens_text`); and every word among
the tokens of a text is at such a site (`exists_wordSite`).  With quotes around it the word is one
literal more, between the same tokens (`WordSite.tokens_quoted`).
-/

namespace DocDirective.Arguments

/-! ### What stands beside a run -/

/-- Over blanks, a mark comes first, or nothing does. -/
def Edge (ps : List Piece) : Prop :=
  ∀ p ∈ (ps.dropWhile Piece.isBlank).head?, ∃ m : Mark, p = .char m.char

namespace Piece

theorem edge_cases {ps : List Piece} (h : Edge ps) :
    (∀ p ∈ ps, isBlank p = true)
      ∨ ∃ ws m rest, ps = ws ++ .char (Mark.char m) :: rest ∧ ∀ p ∈ ws, isBlank p = true := by
  have hsplit := List.takeWhile_append_dropWhile (p := isBlank) (l := ps)
  have hws : ∀ p ∈ ps.takeWhile isBlank, isBlank p = true :=
    fun p hp => List.mem_takeWhile_imp hp
  cases hdrop : ps.dropWhile isBlank with
  | nil => exact .inl (List.dropWhile_eq_nil_iff.1 hdrop)
  | cons p rest =>
    obtain ⟨m, rfl⟩ := h p (by rw [hdrop]; rfl)
    rw [hdrop] at hsplit
    exact .inr ⟨_, m, rest, hsplit.symm, hws⟩

/-- What stands behind an edge is read by itself. -/
theorem tokens_append_edge {qs : List Piece} (h : Edge qs) (ps : List Piece) :
    tokens (ps ++ qs) = do
      let ts ← tokens ps
      let us ← tokens qs
      return ts ++ us := by
  obtain hblank | ⟨ws, m, rest, rfl, hws⟩ := edge_cases h
  · rw [tokens_append_blank hblank, tokens_blank hblank]
    cases tokens ps with
    | error f => rfl
    | ok ts => exact congrArg Except.ok (List.append_nil ts).symm
  · rw [← List.append_assoc, tokens_append_mark, tokens_append_blank hws, tokens_blank_append hws,
      tokens_mark]
    cases tokens ps with
    | error f => rfl
    | ok ts => cases tokens rest <;> rfl

/-- What stands in front of an edge is read by itself. -/
theorem tokens_edge_append {ps : List Piece} (h : Edge ps.reverse) (qs : List Piece) :
    tokens (ps ++ qs) = do
      let ts ← tokens ps
      let us ← tokens qs
      return ts ++ us := by
  have hblank {ws : List Piece} (h : ∀ p ∈ ws, isBlank p = true) :
      ∀ p ∈ ws.reverse, isBlank p = true := fun p hp => h p (List.mem_reverse.1 hp)
  obtain hws | ⟨ws, m, rest, hps, hws⟩ := edge_cases h
  · have hws := hblank hws
    rw [List.reverse_reverse] at hws
    rw [tokens_blank_append hws, tokens_blank hws]
    cases tokens qs <;> rfl
  · obtain rfl : ps = rest.reverse ++ .char m.char :: ws.reverse := by
      rw [← List.reverse_reverse ps, hps]
      simp
    rw [List.append_assoc, List.cons_append, tokens_append_mark, tokens_append_mark,
      tokens_blank_append (hblank hws), tokens_blank (hblank hws)]
    cases tokens rest.reverse with
    | error f => rfl
    | ok ts =>
      cases tokens qs with
      | error f => rfl
      | ok us => exact congrArg Except.ok (List.append_cons ..)

/-! ### Words among pieces -/

theorem trim_map_char (w : List Char) : trim (w.map .char) = (Text.trim w).map .char := by
  rw [trim, List.dropWhile_map, ← List.map_reverse, List.dropWhile_map, ← List.map_reverse]
  rfl

theorem map_char_chars {ps : List Piece} (h : literals ps = []) : (chars ps).map .char = ps := by
  induction ps with
  | nil => rfl
  | cons p ps ih =>
    cases p with
    | char c => rw [chars, List.map_cons, ih h]
    | literal s => cases h

/-- What a run holds whose token is a word. -/
theorem eq_map_of_trimmedToken? {ps : List Piece} {w : String}
    (h : trimmedToken? ps = .ok (some (.word w))) : ps = w.toList.map .char ∧ w.toList ≠ [] := by
  revert h
  fun_cases trimmedToken? ps with
  | case1 =>
    intro h
    cases h
  | case2 s =>
    intro h
    cases h
  | case3 =>
    intro h
    cases h
  | case4 _ hnil _ hempty =>
    intro h
    cases h
    have hchars := map_char_chars (List.isEmpty_iff.1 hempty)
    rw [String.toList_ofList]
    refine ⟨hchars.symm, fun hno => ?_⟩
    rw [hno] at hchars
    exact hnil hchars.symm
  | case5 =>
    intro h
    cases h

theorem exists_trim (ps : List Piece) : ∃ ws ws', ps = ws ++ (trim ps ++ ws')
    ∧ (∀ p ∈ ws, isBlank p = true) ∧ ∀ p ∈ ws', isBlank p = true := by
  refine ⟨ps.takeWhile isBlank, ((ps.dropWhile isBlank).reverse.takeWhile isBlank).reverse, ?_,
    fun p hp => List.mem_takeWhile_imp hp, fun p hp => ?_⟩
  · rw [trim, ← List.reverse_append, List.takeWhile_append_dropWhile, List.reverse_reverse,
      List.takeWhile_append_dropWhile]
  · exact List.mem_takeWhile_imp (List.mem_reverse.1 hp)

theorem trim_trim (ps : List Piece) : trim (trim ps) = trim ps := by
  obtain ⟨ws, ws', hps, hws, hws'⟩ := exists_trim ps
  calc trim (trim ps) = trim (ws ++ (trim ps ++ ws')) := by
        rw [trim_blank_append hws, trim_append_blank hws']
    _ = trim ps := by rw [← hps]

theorem edge_of_blank {ps : List Piece} (h : ∀ p ∈ ps, isBlank p = true) : Edge ps := by
  intro p hp
  rw [List.dropWhile_eq_nil_iff.2 h] at hp
  cases hp

theorem edge_append_mark {ps : List Piece} (h : Edge ps) (m : Mark) (qs : List Piece) :
    Edge (ps ++ .char m.char :: qs) := by
  have hm : isBlank (.char m.char) = false := by cases m <;> decide
  intro p hp
  rw [List.dropWhile_append] at hp
  split at hp
  · rw [List.dropWhile_cons_of_neg (ne_true_of_eq_false hm)] at hp
    cases hp
    exact ⟨m, rfl⟩
  · rename_i hne
    obtain ⟨q, rest, hdrop⟩ := List.exists_cons_of_ne_nil (mt List.isEmpty_iff.2 hne)
    rw [hdrop] at hp
    cases hp
    exact h p (by rw [hdrop]; rfl)

end Piece

/-- A text that can stand as a word: no blank at its ends, and neither a mark nor a quote in it. -/
structure IsWord (w : List Char) : Prop where
  nonempty : w ≠ []
  trimmed  : Text.trim w = w
  bare     : ∀ c ∈ w, Mark.ofChar? c = none ∧ isQuote c = false

theorem IsWord.tokens {w : List Char} (h : IsWord w) :
    Piece.tokens (w.map .char) = .ok [.word (String.ofList w)] := by
  have htrim : Piece.trim (w.map .char) = w.map .char := by rw [Piece.trim_map_char, h.trimmed]
  rw [Piece.tokens_unmarked (unmarked_map_char fun c hc => (h.bare c hc).1),
    token?_word h.nonempty htrim fun c hc => (h.bare c hc).2]
  rfl

namespace Piece

/-- A word is the only token of a run, and all there is in it but blanks. -/
theorem word_of_unmarked {run : List Piece} (hrun : Unmarked run) {us vs : List Token} {w : String}
    (h : tokens run = .ok (us ++ .word w :: vs)) : us = [] ∧ vs = [] ∧ IsWord w.toList
      ∧ ∃ ws ws', run = ws ++ (w.toList.map .char ++ ws')
        ∧ (∀ p ∈ ws, isBlank p = true) ∧ ∀ p ∈ ws', isBlank p = true := by
  rw [tokens_unmarked hrun] at h
  cases ht : token? run with
  | error f =>
    rw [ht] at h
    cases h
  | ok t =>
    rw [ht] at h
    obtain ⟨rfl, rfl, rfl⟩ : us = [] ∧ vs = [] ∧ t = some (.word w) := by
      cases us with
      | nil => cases t <;> cases h; exact ⟨rfl, rfl, rfl⟩
      | cons u us => cases t <;> cases us <;> cases h
    obtain ⟨hmap, hne⟩ := eq_map_of_trimmedToken? ht
    obtain ⟨ws, ws', hsplit, hws, hws'⟩ := exists_trim run
    rw [hmap] at hsplit
    refine ⟨rfl, rfl, ⟨hne, ?_, fun c hc => ?_⟩, ws, ws', hsplit, hws, hws'⟩
    · have htrim := trim_trim run
      rw [hmap, trim_map_char] at htrim
      exact List.map_injective_iff.2 (fun _ _ => Piece.char.inj) htrim
    · have hmem : .char c ∈ run := by
        rw [hsplit]
        exact List.mem_append_right _ (List.mem_append_left _ (List.mem_map_of_mem hc))
      exact ⟨hrun c hmem, isOpenQuote_of_token? ht hmem⟩

/-- Every word among the tokens of pieces stands between two edges, and the tokens on its two sides
are those of the pieces there. -/
theorem exists_word {ps : List Piece} {us vs : List Token} {w : String}
    (h : tokens ps = .ok (us ++ .word w :: vs)) : IsWord w.toList
      ∧ ∃ front back, ps = front ++ (w.toList.map .char ++ back) ∧ Edge front.reverse ∧ Edge back
        ∧ tokens front = .ok us ∧ tokens back = .ok vs := by
  have hrun {run : List Piece} {us vs : List Token} (hrun : Unmarked run)
      (h : tokens run = .ok (us ++ .word w :: vs)) : IsWord w.toList
      ∧ ∃ front back, run = front ++ (w.toList.map .char ++ back) ∧ Edge front.reverse ∧ Edge back
        ∧ tokens front = .ok us ∧ tokens back = .ok vs := by
    obtain ⟨rfl, rfl, hw, ws, ws', rfl, hws, hws'⟩ := word_of_unmarked hrun h
    exact ⟨hw, ws, ws', rfl, edge_of_blank fun p hp => hws p (List.mem_reverse.1 hp),
      edge_of_blank hws', tokens_blank hws, tokens_blank hws'⟩
  induction ps using induct_marks generalizing us with
  | run ps hps => exact hrun hps h
  | mark run m rest hunmarked ih =>
    rw [tokens_append_mark] at h
    obtain ⟨ts, hts, h⟩ := exists_of_bind h
    obtain ⟨xs, hxs, h⟩ := exists_of_bind h
    obtain ⟨ys, rfl, rfl⟩ | ⟨ys, rfl, hys⟩ := append_eq_gap (Except.ok.inj h)
    · -- the word is in the run, and the rest stands behind it
      obtain ⟨hw, front, back, rfl, hfront, hback, hus, hys⟩ := hrun hunmarked hts
      refine ⟨hw, front, _, by simp, hfront, edge_append_mark hback m rest, hus, ?_⟩
      rw [tokens_append_mark, hys, hxs]
      rfl
    · -- the word stands behind the mark
      cases ys with
      | nil => cases hys
      | cons y ys =>
        rw [List.cons_append, List.cons.injEq] at hys
        obtain ⟨rfl, rfl⟩ := hys
        obtain ⟨hw, front, back, rfl, hfront, hback, hus, hvs⟩ := ih hxs
        refine ⟨hw, run ++ .char m.char :: front, back, by simp, ?_, hback, ?_, hvs⟩
        · have hedge := edge_append_mark hfront m run.reverse
          simpa using hedge
        · rw [tokens_append_mark, hts, hus]
          rfl

/-- One token between two edges, with the tokens on its two sides. -/
theorem tokens_between {front run back : List Piece} (hfront : Edge front.reverse)
    (hback : Edge back) {t : Token} (ht : tokens run = .ok [t]) :
    tokens (front ++ (run ++ back)) = do
      let ts ← tokens front
      let us ← tokens back
      return ts ++ t :: us := by
  rw [tokens_edge_append hfront, tokens_append_edge hback, ht]
  cases tokens front with
  | error f => rfl
  | ok ts => cases tokens back <;> rfl

end Piece

/-! ### Words in a text -/

/-- A word in a text, outside its literals: what stands in front of it, with the pieces that this is
read as, and what stands behind it.  Over blanks, a mark or an end of the text stands on either
side. -/
structure WordSite where
  before : List Char
  word   : List Char
  after  : List Char
  pieces : List Piece
  isWord : IsWord word
  reads  : Reads (word ++ after) before pieces
  start  : Edge pieces.reverse
  stop   : Edge (Piece.ofText after)

theorem escape_eq_self {q : Char} {cs : List Char} (h : q ∉ cs) : escape q cs = cs := by
  induction cs with
  | nil => rfl
  | cons c cs ih =>
    rw [List.mem_cons, not_or] at h
    rw [escape_cons, if_neg (Ne.symm h.1), ih h.2]
    rfl

theorem Reads.eq_of_map_char {rest front w : List Char} (h : Reads rest front (w.map .char)) :
    front = w := by
  induction w generalizing front with
  | nil =>
    cases h
    rfl
  | cons c w ih =>
    cases h with
    | char _ tail => rw [ih tail]

namespace WordSite

/-- The text. -/
def text (x : WordSite) : String := String.ofList (x.before ++ (x.word ++ x.after))

/-- The text with single quotes around the word. -/
def quoted (x : WordSite) : String :=
  String.ofList (x.before ++ '\x27' :: (x.word ++ '\x27' :: x.after))

/-- The word stands as a key: a colon follows it. -/
def IsKey (x : WordSite) : Prop := (Text.trimStart x.after).head? = some Mark.colon.char

theorem ofText_text (x : WordSite) : Piece.ofText x.text.toList
    = x.pieces ++ (x.word.map .char ++ Piece.ofText x.after) := by
  rw [text, String.toList_ofList, x.reads.ofText, ofText_append fun c hc => (x.isWord.bare c hc).2]

theorem tokens_text (x : WordSite) : Piece.tokens (Piece.ofText x.text.toList) = do
    let ts ← Piece.tokens x.pieces
    let us ← Piece.tokens (Piece.ofText x.after)
    return ts ++ .word (String.ofList x.word) :: us := by
  rw [x.ofText_text, Piece.tokens_between x.start x.stop x.isWord.tokens]

section Quoted

variable {x : WordSite} (hclosed : ∀ p ∈ x.pieces, p.isOpenQuote = false) (hw : Quotable x.word)

include hclosed hw

/-- With quotes around it, the word is a literal between the same pieces. -/
theorem ofText_quoted : Piece.ofText x.quoted.toList
    = x.pieces ++ ([.literal (String.ofList x.word)] ++ Piece.ofText x.after) := by
  have hquote : Arguments.isQuote '\x27' = true := rfl
  have hescape : escape '\x27' x.word = x.word :=
    escape_eq_self fun hmem => absurd hquote (ne_true_of_eq_false (x.isWord.bare _ hmem).2)
  have hcontent := encloses_escape hquote hw
  have hvalue := unescape_escape hquote x.word
  rw [hescape] at hcontent hvalue
  rw [quoted, String.toList_ofList,
    Site.ofText_append_literal hquote hcontent rfl (x.reads.of_closed hclosed), hvalue]
  rfl

theorem tokens_quoted : Piece.tokens (Piece.ofText x.quoted.toList) = do
    let ts ← Piece.tokens x.pieces
    let us ← Piece.tokens (Piece.ofText x.after)
    return ts ++ .literal (String.ofList x.word) :: us := by
  rw [ofText_quoted hclosed hw, Piece.tokens_between x.start x.stop rfl]

end Quoted

/-- Behind a key, the tokens begin with a colon. -/
theorem IsKey.head?_tokens {x : WordSite} (h : x.IsKey) {vs : List Token}
    (hvs : Piece.tokens (Piece.ofText x.after) = .ok vs) : ∃ us, vs = .mark .colon :: us := by
  obtain ⟨rest, hrest⟩ := List.head?_eq_some_iff.1 h
  have hblank : ∀ c ∈ x.after.takeWhile Text.isBlank, Text.isBlank c = true :=
    fun c hc => List.mem_takeWhile_imp hc
  have hafter : x.after.takeWhile Text.isBlank ++ Mark.colon.char :: rest = x.after :=
    hrest ▸ List.takeWhile_append_dropWhile
  rw [← hafter, ofText_append fun c hc => Piece.isQuote_of_isBlank (hblank c hc),
    Piece.tokens_blank_append (List.forall_mem_map.2 hblank), ofText_mark, tokens_mark] at hvs
  obtain ⟨us, -, hvs⟩ := exists_of_bind hvs
  exact ⟨us, (Except.ok.inj hvs).symm⟩

end WordSite

/-- Every word among the tokens of a text is at a site of the text. -/
theorem exists_wordSite {text : String} {us vs : List Token} {w : String}
    (h : Piece.tokens (Piece.ofText text.toList) = .ok (us ++ .word w :: vs)) :
    ∃ x : WordSite, x.text = text ∧ String.ofList x.word = w ∧ Piece.tokens x.pieces = .ok us
      ∧ Piece.tokens (Piece.ofText x.after) = .ok vs := by
  obtain ⟨hw, front, back, hsplit, hfront, hback, hus, hvs⟩ := Piece.exists_word h
  obtain ⟨before, rest, htext, hreads, hrest⟩ := exists_reads hsplit
  obtain ⟨word, after, rfl, hword, rfl⟩ := exists_reads hrest
  obtain rfl := hword.eq_of_map_char
  refine ⟨⟨before, _, after, front, hw, hreads, hfront, hback⟩, ?_, String.ofList_toList, hus, hvs⟩
  rw [WordSite.text, ← htext, String.ofList_toList]

end DocDirective.Arguments
