import DocDirective.Route.Path
import Mathlib.Data.List.Infix
import Mathlib.Data.List.TakeWhile

/-!
# Proofs — Route — Path

Paths come out canonical (`canonical_normalize`): each rewriting of a path keeps what the ones
before it have reached.
-/

namespace DocDirective.Route

/-- A path in canonical form. -/
structure Canonical (path : String) : Prop where
  head      : path.toList.head? = some '/'
  single    : ¬ ['/', '/'] <:+: path.toList
  final     : path.toList.getLast? = some '/' → path = "/"
  parameter : ∀ c, Text.isIdentStart c = true → ¬ ['/', '$', c] <:+: path.toList

/-! ### Parameters -/

/-- No slash stands in front of a dollar sign and the start of an identifier. -/
def Braced (cs : List Char) : Prop :=
  ∀ c, Text.isIdentStart c = true → ¬ ['/', '$', c] <:+: cs

/-- A rewriting that keeps the first character, and a dollar sign in front of the rest. -/
structure KeepsDollars (f : List Char → List Char) : Prop where
  head   : ∀ cs, (f cs).head? = cs.head?
  dollar : ∀ cs, f ('$' :: cs) = '$' :: f cs

theorem KeepsDollars.of_isPrefix {f : List Char → List Char} (hf : KeepsDollars f) {c : Char}
    {cs : List Char} (h : ['$', c] <+: f cs) : ['$', c] <+: cs := by
  obtain ⟨rest, hrest⟩ := h
  have hhead : cs.head? = some '$' := by rw [← hf.head, ← hrest]; rfl
  obtain ⟨ds, rfl⟩ := List.head?_eq_some_iff.1 hhead
  rw [hf.dollar, List.cons_append, List.cons.injEq] at hrest
  have hhead : ds.head? = some c := by rw [← hf.head, ← hrest.2]; rfl
  obtain ⟨es, rfl⟩ := List.head?_eq_some_iff.1 hhead
  exact ⟨es, rfl⟩

theorem keepsDollars_braceParams : KeepsDollars braceParams where
  head cs := by
    fun_cases braceParams cs with
    | case1 => rfl
    | case2 c rest h => rw [h.1]; rfl
    | case3 => rfl
    | case4 => rfl
  dollar cs := by
    rw [braceParams, if_neg fun h => absurd h.1 (by decide)]

theorem keepsDollars_collapse : KeepsDollars collapse where
  head cs := by
    induction cs with
    | nil => rfl
    | cons c cs ih =>
      rw [collapse]
      split
      · rename_i h
        simp only [Bool.and_eq_true, decide_eq_true_eq] at h
        rw [ih, h.2, h.1]
        rfl
      · rfl
  dollar cs := by
    rw [collapse, if_neg (by simp)]

theorem braced_cons_iff {c : Char} {cs : List Char} : Braced (c :: cs)
    ↔ (c = '/' → ∀ d, Text.isIdentStart d = true → ¬ ['$', d] <+: cs) ∧ Braced cs := by
  simp only [Braced, List.infix_cons_iff, List.cons_prefix_cons, not_or, not_and]
  exact ⟨fun h => ⟨fun hc d hd => (h d hd).1 hc.symm, fun d hd => (h d hd).2⟩,
    fun h d hd => ⟨fun hc => h.1 hc.symm d hd, h.2 d hd⟩⟩

theorem braced_append {name cs : List Char} (hname : '/' ∉ name) (h : Braced cs) :
    Braced (name ++ cs) := by
  induction name with
  | nil => exact h
  | cons c name ih =>
    rw [List.mem_cons, not_or] at hname
    exact braced_cons_iff.2 ⟨fun hc => absurd hc.symm hname.1, ih hname.2⟩

theorem slash_not_mem_identifier {cs name after : List Char}
    (h : Text.spanIdentifier cs = some (name, after)) : '/' ∉ name := by
  unfold Text.spanIdentifier at h
  split at h
  · cases h
  · split at h
    · rename_i c rest hc
      cases h
      rw [List.mem_cons, not_or]
      refine ⟨fun heq => ?_, fun hmem => ?_⟩
      · rw [← heq] at hc
        exact absurd hc (by decide)
      · exact absurd (List.mem_takeWhile_imp hmem) (by decide)
    · cases h

theorem braced_braceParams (cs : List Char) : Braced (braceParams cs) := by
  fun_induction braceParams cs with
  | case1 => exact fun _ _ h => absurd (List.infix_nil.1 h) (List.cons_ne_nil _ _)
  | case2 c rest h name after hspan _ ih =>
    have hname : '/' ∉ '\x7b' :: name ++ ['\x7d'] := by
      simp [slash_not_mem_identifier hspan]
    refine braced_cons_iff.2 ⟨fun _ d _ hd => ?_, ?_⟩
    · obtain ⟨ds, hds⟩ := hd
      cases hds
    · simpa using braced_append hname ih
  | case3 c rest h hspan ih =>
    refine braced_cons_iff.2 ⟨fun _ d hd hprefix => ?_, ih⟩
    obtain ⟨ds, rfl⟩ := keepsDollars_braceParams.of_isPrefix hprefix
    simp [Text.spanIdentifier, hd] at hspan
  | case4 c rest h ih =>
    refine braced_cons_iff.2 ⟨fun hc d hd hprefix => h ⟨hc, ?_⟩, ih⟩
    obtain ⟨ds, rfl⟩ := keepsDollars_braceParams.of_isPrefix hprefix
    rfl

/-! ### Slashes -/

theorem braced_collapse {cs : List Char} (h : Braced cs) : Braced (collapse cs) := by
  induction cs with
  | nil => exact h
  | cons c cs ih =>
    obtain ⟨hfirst, hrest⟩ := braced_cons_iff.1 h
    rw [collapse]
    split
    · exact ih hrest
    · refine braced_cons_iff.2 ⟨fun hc d hd hprefix => ?_, ih hrest⟩
      exact hfirst hc d hd (keepsDollars_collapse.of_isPrefix hprefix)

theorem single_collapse (cs : List Char) : ¬ ['/', '/'] <:+: collapse cs := by
  induction cs with
  | nil => exact fun h => absurd (List.infix_nil.1 h) (List.cons_ne_nil _ _)
  | cons c cs ih =>
    rw [collapse]
    split
    · exact ih
    · rename_i hc
      rw [List.infix_cons_iff, not_or, List.cons_prefix_cons]
      refine ⟨fun ⟨hslash, hprefix⟩ => hc ?_, ih⟩
      obtain ⟨ds, hds⟩ := hprefix
      have hhead : cs.head? = some '/' := by
        rw [← keepsDollars_collapse.head, ← hds]
        rfl
      simp [← hslash, hhead]

theorem prefix_dropFinalSlash (cs : List Char) : dropFinalSlash cs <+: cs := by
  unfold dropFinalSlash
  split
  · exact List.dropLast_prefix cs
  · exact List.prefix_rfl

theorem head?_dropFinalSlash (cs : List Char) : (dropFinalSlash cs).head? = cs.head? := by
  unfold dropFinalSlash
  split
  · rename_i h
    simp only [Bool.and_eq_true, decide_eq_true_eq] at h
    match cs, h.1 with
    | c :: d :: ds, _ => rfl
  · rfl

/-- Where no two slashes stand next to each other, none is at the end but the only character. -/
theorem eq_of_getLast?_dropFinalSlash {cs : List Char} (h : ¬ ['/', '/'] <:+: cs)
    (hlast : (dropFinalSlash cs).getLast? = some '/') : dropFinalSlash cs = ['/'] := by
  unfold dropFinalSlash at hlast ⊢
  split
  · rename_i hslash
    rw [if_pos hslash] at hlast
    simp only [Bool.and_eq_true, decide_eq_true_eq] at hslash
    obtain ⟨ds, hds⟩ := List.getLast?_eq_some_iff.1 hslash.2
    rw [hds, List.dropLast_concat] at hlast
    obtain ⟨es, rfl⟩ := List.getLast?_eq_some_iff.1 hlast
    exact absurd ⟨es, [], by simpa using hds.symm⟩ h
  · rename_i hshort
    rw [if_neg hshort] at hlast
    rw [hlast] at hshort
    simp only [decide_true, Bool.and_true, decide_eq_true_eq] at hshort
    obtain ⟨ds, rfl⟩ := List.getLast?_eq_some_iff.1 hlast
    have hnil : ds = [] := by
      rw [List.length_append, List.length_singleton] at hshort
      exact List.length_eq_zero_iff.1 (by omega)
    rw [hnil]
    rfl

/-! ### Paths -/

theorem head?_withSlash (cs : List Char) : (withSlash cs).head? = some '/' := by
  unfold withSlash
  split
  · assumption
  · rfl

/-- Every path that is made canonical is canonical. -/
theorem canonical_normalize (path : String) : Canonical (normalize path) := by
  unfold normalize
  split
  · refine ⟨rfl, by decide, fun _ => rfl, fun c _ h => ?_⟩
    exact absurd h.length_le (by simp)
  · have hsingle := single_collapse (braceParams (withSlash (Text.trim path.toList)))
    have hbraced := braced_collapse (braced_braceParams (withSlash (Text.trim path.toList)))
    have hinside {ds : List Char} (cs : List Char) (h : ds <:+: dropFinalSlash cs) : ds <:+: cs :=
      h.trans (prefix_dropFinalSlash cs).isInfix
    refine ⟨?_, ?_, fun hlast => ?_, fun c hc => ?_⟩
    · rw [String.toList_ofList, head?_dropFinalSlash, keepsDollars_collapse.head,
        keepsDollars_braceParams.head, head?_withSlash]
    · rw [String.toList_ofList]
      exact fun h => hsingle (hinside _ h)
    · rw [String.toList_ofList] at hlast
      rw [eq_of_getLast?_dropFinalSlash hsingle hlast]
    · rw [String.toList_ofList]
      exact fun h => hbraced c hc (hinside _ h)

theorem canonical_join (base route : String) : Canonical (join base route) := by
  unfold join
  split
  · exact canonical_normalize _
  · exact canonical_normalize _

end DocDirective.Route
