import DocDirective.Arguments.Entry
import DocDirective.Kind.Conversion
import DocDirective.Proofs.Keyed
import DocDirective.Proofs.Number.Digits
import DocDirective.Proofs.Steps

/-!
# Proofs — Arguments — Values

The values that an argument text can stand for.  They are single values and lists of single values;
null, mappings and lists of lists never come out of a text.  A whole number that a text is read as
has few enough digits to be written again, so every such value has a text.
-/

namespace DocDirective

/-! ### Whole numbers of a text -/

namespace Numeral

theorem digitValue?_lt {c : Char} {d : Nat} (h : Text.digitValue? c = some d) : d < 10 := by
  obtain ⟨z, hz, rfl⟩ := Option.map_eq_some_iff.1 h
  have hrange := List.find?_some hz
  simp only [Bool.and_eq_true, decide_eq_true_eq] at hrange
  omega

theorem spanDigits_lt (cs : List Char) : ∀ d ∈ (spanDigits cs).1, d < 10 := by
  induction cs with
  | nil => simp [spanDigits]
  | cons c cs ih =>
    rw [spanDigits]
    cases hc : Text.digitValue? c with
    | none => simp
    | some d => exact List.forall_mem_cons.2 ⟨digitValue?_lt hc, ih⟩

theorem whole_of_finish? {negative : Bool} {whole : List Nat} {fraction : Option (List Nat)}
    {cs : List Char} {n : Numeral} (h : finish? negative whole fraction cs = some n) :
    n.whole = whole := by
  cases cs with
  | nil =>
    cases h
    rfl
  | cons c cs =>
    rw [finish?] at h
    split at h
    · obtain ⟨e, -, rfl⟩ := Option.map_eq_some_iff.1 h
      rfl
    · cases h

theorem whole_of_read? {cs : List Char} {n : Numeral} (h : read? cs = some n) :
    n.whole = (spanDigits (spanSign cs).2).1 := by
  simp only [read?] at h
  split at h <;> split at h
  · cases h
  · exact whole_of_finish? h
  · cases h
  · exact whole_of_finish? h

/-- A whole number read from a text can be written. -/
theorem intText_of_read? {cs : List Char} {m : Numeral} {n : Int} (hm : read? cs = some m)
    (hn : m.toInt = .ok n) : ∃ s, intText n = .ok s :=
  intText_of_toInt (whole_of_read? hm ▸ spanDigits_lt _) hn

end Numeral

/-! ### Single values and lists of them -/

namespace Value

/-- A text, a truth value or a number that can be written. -/
inductive Single : Value → Prop
  | bool (b : Bool) : Single (.bool b)
  | int {n : Int} (h : ∃ s, Numeral.intText n = .ok s) : Single (.int n)
  | float (x : Binary64) : Single (.float x)
  | text (s : String) : Single (.text s)

/-- A single value, or a list of single values. -/
inductive Flat : Value → Prop
  | single {v : Value} (h : v.Single) : Flat v
  | list {vs : List Value} (h : ∀ v ∈ vs, v.Single) : Flat (.list vs)

theorem Single.asText {v : Value} (h : v.Single) : ∃ s, v.asText = .ok s := by
  cases h with
  | bool b => exact ⟨_, rfl⟩
  | int h =>
    obtain ⟨s, hs⟩ := h
    exact ⟨s, by simp only [Value.asText, plain, inspect, hs]⟩
  | float x => exact ⟨_, rfl⟩
  | text s => exact ⟨s, rfl⟩

/-- Every value of a text but a list has a text of its own. -/
theorem Flat.asText {v : Value} (h : v.Flat) (hl : v.isList = false) : ∃ s, v.asText = .ok s := by
  cases h with
  | single h => exact h.asText
  | list h => cases hl

theorem Single.display {v : Value} (h : v.Single) : ∃ s, v.display = .ok s := by
  cases h with
  | bool b => exact ⟨_, rfl⟩
  | int h =>
    obtain ⟨s, hs⟩ := h
    exact ⟨s, by simp only [Value.display, plain, inspect, hs]⟩
  | float x => exact ⟨_, rfl⟩
  | text s => exact ⟨s, rfl⟩

theorem displayItems_of_display {vs : List Value} (h : ∀ v ∈ vs, ∃ s, v.display = .ok s) :
    ∃ ts, displayItems vs = .ok ts := by
  induction vs with
  | nil => exact ⟨[], rfl⟩
  | cons v vs ih =>
    rw [List.forall_mem_cons] at h
    obtain ⟨s, hs⟩ := h.1
    obtain ⟨ts, hts⟩ := ih h.2
    exact ⟨s :: ts, by simp only [displayItems, hs, hts, bind, Except.bind, pure, Except.pure]⟩

/-- Every value of a text can stand in a message. -/
theorem Flat.display {v : Value} (h : v.Flat) : ∃ s, v.display = .ok s := by
  cases h with
  | single h => exact h.display
  | list h =>
    obtain ⟨ts, hts⟩ := displayItems_of_display fun v hv => (h v hv).display
    refine ⟨"(" ++ ", ".intercalate ts ++ ")", ?_⟩
    simp only [Value.display, hts, bind, Except.bind, pure, Except.pure]

theorem displayAll_of_flat {vs : List Value} (h : ∀ v ∈ vs, v.Flat) :
    ∃ s, displayAll vs = .ok s := by
  obtain ⟨ts, hts⟩ := displayItems_of_display fun v hv => (h v hv).display
  exact ⟨_, by rw [displayAll, hts]; rfl⟩

end Value

/-- Parameters that carry single values and lists of single values. -/
structure Parameters.Flat (p : Parameters) : Prop where
  positional : ∀ v ∈ p.positional, v.Flat
  keyed      : ∀ e ∈ p.keyed.entries, e.2.Flat

namespace Parameters.Flat

theorem empty : Parameters.empty.Flat where
  positional := by simp [Parameters.empty]
  keyed      := by simp [Parameters.empty, Keyed.empty]

theorem add {p : Parameters} (hp : p.Flat) {v : Value} (hv : v.Flat) : (p.add v).Flat where
  positional := by
    rintro w hw
    rcases List.mem_append.1 hw with hw | hw
    · exact hp.positional w hw
    · exact List.mem_singleton.1 hw ▸ hv
  keyed      := hp.keyed

theorem set {p : Parameters} (hp : p.Flat) (key : String) {v : Value} (hv : v.Flat) :
    (p.set key v).Flat where
  positional := hp.positional
  keyed      := by
    rintro e he
    rcases Keyed.mem_assign he with rfl | he
    · exact hv
    · exact hp.keyed e he

end Parameters.Flat

/-! ### What an argument text stands for -/

namespace Arguments

theorem wordValue_single {w : String} {v : Value} (h : wordValue w = .ok v) : v.Single := by
  simp only [wordValue] at h
  split at h
  · cases h
    exact .bool true
  · split at h
    · cases h
      exact .bool false
    · split at h
      · rename_i m hm
        split at h
        · split at h
          · rename_i i hi
            cases h
            exact .int (Numeral.intText_of_read? hm hi)
          · cases h
        · cases h
          exact .float _
      · cases h
        exact .text w

theorem atomValue_single {t : Token} {v : Value} (h : atomValue t = .ok v) : v.Single := by
  cases t with
  | mark m => cases h
  | literal s =>
    cases h
    exact .text s
  | word w => exact wordValue_single h

/-- A list holds single values only. -/
theorem items_single {ts rest : List Token} {vs : List Value} (h : items ts = .ok (vs, rest)) :
    ∀ v ∈ vs, v.Single := by
  fun_induction items ts generalizing vs with
  | case1 => cases h
  | case2 r =>
    cases h
    simp
  | case3 => cases h
  | case4 => cases h
  | case5 => cases h
  | case6 t r =>
    rename_i ih
    obtain ⟨v, hv, h⟩ := exists_of_bind h
    have hsingle := atomValue_single hv
    split at h
    · cases h
      simpa using hsingle
    · obtain ⟨⟨us, rest'⟩, hitems, h⟩ := exists_of_bind h
      cases h
      exact List.forall_mem_cons.2 ⟨hsingle, ih hitems⟩
    · cases h

theorem topValue_flat {ts rest : List Token} {v : Value} (h : topValue ts = .ok (v, rest)) :
    v.Flat := by
  unfold topValue at h
  split at h
  · cases h
  · obtain ⟨⟨vs, rest'⟩, hitems, h⟩ := exists_of_bind h
    cases h
    exact .list (items_single hitems)
  · obtain ⟨w, hw, h⟩ := exists_of_bind h
    cases h
    exact .single (atomValue_single hw)

theorem entry_flat {ts rest : List Token} {e : Entry} (h : entry ts = .ok (e, rest)) :
    e.value.Flat := by
  obtain ⟨⟨v, rest'⟩, hv, h⟩ := exists_of_bind h
  cases h
  exact topValue_flat hv

theorem entries_flat {ts rest : List Token} {es : List Entry}
    (h : entries ts = .ok (es, rest)) : ∀ e ∈ es, e.value.Flat := by
  fun_induction entries ts generalizing es with
  | case1 r =>
    cases h
    simp
  | case2 => cases h
  | case3 ts _ e r he =>
    cases h
    simpa using entry_flat he
  | case4 ts _ e r he _ ih =>
    cases hr : entries r with
    | error f =>
      rw [hr] at h
      cases h
    | ok q =>
      rw [hr] at h
      cases h
      exact List.forall_mem_cons.2 ⟨entry_flat he, ih hr⟩
  | case5 => cases h

theorem parse_flat {ts : List Token} {es : List Entry} (h : parse ts = .ok es) :
    ∀ e ∈ es, e.value.Flat := by
  unfold parse at h
  split at h
  · obtain ⟨⟨fs, rest⟩, hentries, h⟩ := exists_of_bind h
    split at h
    · cases h
      exact entries_flat hentries
    · cases h
  · cases h

theorem collect_flat {es : List Entry} (h : ∀ e ∈ es, e.value.Flat) : (collect es).Flat := by
  unfold collect
  generalize hp : Parameters.empty = p
  have hflat : p.Flat := hp ▸ .empty
  clear hp
  induction es generalizing p with
  | nil => exact hflat
  | cons e es ih =>
    rw [List.forall_mem_cons] at h
    rw [List.foldl_cons]
    refine ih h.2 _ ?_
    split
    · split
      · exact hflat.add h.1
      · exact hflat.set _ h.1
    · exact hflat.add h.1

/-- **An argument text stands for single values and lists of single values.** -/
theorem evaluate_flat {text : String} {p : Parameters} (h : evaluate text = .ok p) : p.Flat := by
  obtain ⟨ts, -, h⟩ := exists_of_bind h
  obtain ⟨es, hes, h⟩ := exists_of_bind h
  cases h
  exact collect_flat (parse_flat hes)

end Arguments

end DocDirective
