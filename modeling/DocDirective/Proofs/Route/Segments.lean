import DocDirective.Proofs.Route.Path
import DocDirective.Proofs.Text.Identifier

/-!
# Proofs — Route — Segments

A canonical path is told piece by piece (`normalize_eq_pieces`).  The rewritings of a path go over
the whole of it, one after another; cut at the slashes each of them is a rewriting of the pieces.
Parameters come into braces in one piece at a time (`braceParams_slashed`), and what is left of the
slashes is one in front of every piece that is not empty (`dropFinalSlash_collapse`).
-/

namespace DocDirective.Route

/-! ### Pieces -/

/-- A piece with the dollar sign and the identifier at its start, if they are there, written as the
identifier in braces. -/
def bracePiece : List Char → List Char
  | '$' :: c :: rest =>
    if Text.isIdentStart c then
      '\x7b' :: c :: rest.takeWhile Text.isIdentPart ++ '\x7d' :: rest.dropWhile Text.isIdentPart
    else '$' :: c :: rest
  | piece => piece

/-- What stands between the slashes of a path without the blanks at its ends, where it is not
empty. -/
def pieces (path : String) : List (List Char) :=
  ((Text.trim path.toList).splitOn '/').filter (· ≠ [])

/-- Pieces with a slash in front of each. -/
def slashed (ps : List (List Char)) : List Char := ps.flatMap ('/' :: ·)

theorem slashed_cons (p : List Char) (ps : List (List Char)) :
    slashed (p :: ps) = '/' :: (p ++ slashed ps) := rfl

theorem head?_slashed {ps : List (List Char)} : ∀ c ∈ (slashed ps).head?, c = '/' := by
  cases ps with
  | nil => simp [slashed]
  | cons p ps => simp [slashed_cons]

theorem slashed_eq_cons_intercalate {ps : List (List Char)} (h : ps ≠ []) :
    slashed ps = '/' :: ['/'].intercalate ps := by
  induction ps with
  | nil => exact absurd rfl h
  | cons p ps ih =>
    cases ps with
    | nil => simp [slashed]
    | cons q qs =>
      rw [slashed_cons, ih (List.cons_ne_nil q qs), List.intercalate_cons_cons, List.append_assoc,
        List.singleton_append]

/-- A text with a slash in front is its pieces with a slash in front of each. -/
theorem slashed_splitOn (cs : List Char) : slashed (cs.splitOn '/') = '/' :: cs := by
  rw [slashed_eq_cons_intercalate (List.splitOn_ne_nil '/' cs), List.intercalate_splitOn]

theorem slash_notMem_of_mem_splitOn {cs p : List Char} (h : p ∈ cs.splitOn '/') : '/' ∉ p := by
  induction cs generalizing p with
  | nil => simp_all
  | cons c cs ih =>
    rw [List.splitOn_cons_eq_if_modifyHead] at h
    by_cases hc : c = '/'
    · rw [if_pos (by simp [hc])] at h
      rcases List.mem_cons.1 h with rfl | h
      · exact List.not_mem_nil
      · exact ih h
    · obtain ⟨q, qs, hq⟩ := List.exists_cons_of_ne_nil (List.splitOn_ne_nil '/' cs)
      rw [if_neg (by simp [hc]), hq, List.modifyHead_cons] at h
      rcases List.mem_cons.1 h with rfl | h
      · rw [List.mem_cons, not_or]
        exact ⟨Ne.symm hc, ih (by simp [hq])⟩
      · exact ih (by simp [hq, h])

/-- A path with a slash in front is told by pieces; those that are not empty are its own. -/
theorem exists_slashed (cs : List Char) :
    ∃ ps, ps ≠ [] ∧ (∀ p ∈ ps, '/' ∉ p) ∧ withSlash cs = slashed ps
      ∧ ps.filter (· ≠ []) = (cs.splitOn '/').filter (· ≠ []) := by
  by_cases h : cs.head? = some '/'
  · -- the slash in front has an empty piece before it
    obtain ⟨ds, rfl⟩ := List.head?_eq_some_iff.1 h
    refine ⟨ds.splitOn '/', List.splitOn_ne_nil '/' ds, fun p => slash_notMem_of_mem_splitOn,
      ?_, ?_⟩
    · rw [withSlash, if_pos h, slashed_splitOn]
    · simp [List.splitOn_cons_eq_if_modifyHead]
  · refine ⟨cs.splitOn '/', List.splitOn_ne_nil '/' cs, fun p => slash_notMem_of_mem_splitOn,
      ?_, rfl⟩
    rw [withSlash, if_neg h, slashed_splitOn]

/-! ### Parameters -/

/-- Where no slash stands, nothing is put in braces. -/
theorem braceParams_append {p : List Char} (hp : '/' ∉ p) (cs : List Char) :
    braceParams (p ++ cs) = p ++ braceParams cs := by
  induction p with
  | nil => rfl
  | cons c p ih =>
    rw [List.mem_cons, not_or] at hp
    rw [List.cons_append, braceParams, if_neg fun h => hp.1 h.1.symm, ih hp.2, List.cons_append]

theorem braceParams_param {rest name after : List Char}
    (h : Text.spanIdentifier rest = some (name, after)) :
    braceParams ('/' :: '$' :: rest)
      = '/' :: '\x7b' :: name ++ '\x7d' :: braceParams after := by
  rw [braceParams, if_pos ⟨rfl, rfl⟩]
  split <;> rename_i h' <;> cases h.symm.trans h'
  rfl

theorem braceParams_dollar {rest : List Char} (h : Text.spanIdentifier rest = none) :
    braceParams ('/' :: '$' :: rest) = '/' :: '$' :: braceParams rest := by
  have hdollar : braceParams ('$' :: rest) = '$' :: braceParams rest :=
    keepsDollars_braceParams.dollar rest
  rw [braceParams, if_pos ⟨rfl, rfl⟩]
  split <;> rename_i h' <;> cases h.symm.trans h'
  rw [hdollar]

theorem braceParams_slash {cs : List Char} (h : cs.head? ≠ some '$') :
    braceParams ('/' :: cs) = '/' :: braceParams cs := by
  rw [braceParams, if_neg fun hc => h hc.2]

/-- In front of a slash, or at the end, an identifier ends with its piece. -/
theorem spanIdentifier_piece {c : Char} (hc : Text.isIdentStart c = true) (rest : List Char)
    {cs : List Char} (hcs : ∀ d ∈ cs.head?, d = '/') :
    Text.spanIdentifier (c :: rest ++ cs) = some (c :: rest.takeWhile Text.isIdentPart,
      rest.dropWhile Text.isIdentPart ++ cs) := by
  have hname : Text.isIdentifier (c :: rest.takeWhile Text.isIdentPart) = true := by
    rw [Text.isIdentifier, Bool.and_eq_true, List.all_eq_true]
    exact ⟨hc, fun d hd => List.mem_takeWhile_imp hd⟩
  have hstop : ∀ d ∈ (rest.dropWhile Text.isIdentPart ++ cs).head?,
      Text.isIdentPart d = false := by
    intro d hd
    cases hrest : rest.dropWhile Text.isIdentPart with
    | nil =>
      rw [hrest] at hd
      rw [hcs d hd]
      rfl
    | cons e es =>
      rw [hrest] at hd
      obtain rfl : e = d := Option.some.inj hd
      have hhead := List.head?_dropWhile_not Text.isIdentPart rest
      rw [hrest] at hhead
      simpa using hhead
  rw [← Text.spanIdentifier_append hname hstop, List.cons_append, List.cons_append,
    ← List.append_assoc, List.takeWhile_append_dropWhile]

/-- The parameter that a piece starts with comes into braces, and nothing else of the piece
changes. -/
theorem braceParams_piece {p cs : List Char} (hp : '/' ∉ p) (hcs : ∀ d ∈ cs.head?, d = '/') :
    braceParams ('/' :: (p ++ cs)) = '/' :: (bracePiece p ++ braceParams cs) := by
  have hstart : ∀ d ∈ cs.head?, Text.isIdentStart d = false := by
    intro d hd
    rw [hcs d hd]
    rfl
  rcases p with _ | ⟨d, rest⟩
  · have hhead : cs.head? ≠ some '$' := fun h => absurd (hcs '$' h) (by decide)
    exact braceParams_slash hhead
  rw [List.mem_cons, not_or] at hp
  by_cases hd : d = '$'
  · subst hd
    rcases rest with _ | ⟨c, rest⟩
    · exact braceParams_dollar (Text.spanIdentifier_of_head hstart)
    by_cases hc : Text.isIdentStart c = true
    · have hrest : '/' ∉ rest.dropWhile Text.isIdentPart :=
        fun h => hp.2 (List.mem_cons_of_mem c ((List.dropWhile_suffix _).mem h))
      have hspan := spanIdentifier_piece hc rest hcs
      rw [List.cons_append, braceParams_param hspan, braceParams_append hrest, bracePiece,
        if_pos hc]
      simp
    · have hspan : Text.spanIdentifier (c :: rest ++ cs) = none :=
        Text.spanIdentifier_of_head (by simpa using hc)
      rw [List.cons_append, braceParams_dollar hspan, braceParams_append hp.2, bracePiece,
        if_neg hc]
      simp
  · have hhead : (d :: rest ++ cs).head? ≠ some '$' := by simpa using hd
    have hkeep : bracePiece (d :: rest) = d :: rest := by simp [bracePiece, hd]
    have hslash : '/' ∉ d :: rest := by simp [hp]
    rw [braceParams_slash hhead, braceParams_append hslash, hkeep]

theorem braceParams_slashed {ps : List (List Char)} (hps : ∀ p ∈ ps, '/' ∉ p) :
    braceParams (slashed ps) = slashed (ps.map bracePiece) := by
  induction ps with
  | nil => simp [slashed, braceParams]
  | cons p ps ih =>
    rw [List.forall_mem_cons] at hps
    rw [slashed_cons, braceParams_piece hps.1 head?_slashed, ih hps.2, List.map_cons, slashed_cons]

theorem bracePiece_eq_nil_iff {p : List Char} : bracePiece p = [] ↔ p = [] := by
  fun_cases bracePiece p <;> simp_all

theorem slash_notMem_bracePiece {p : List Char} (h : '/' ∉ p) : '/' ∉ bracePiece p := by
  fun_cases bracePiece p with
  | case1 c rest hc =>
    simp only [List.mem_cons, not_or] at h
    have htake : '/' ∉ rest.takeWhile Text.isIdentPart :=
      fun h' => h.2.2 ((List.takeWhile_prefix _).mem h')
    have hdrop : '/' ∉ rest.dropWhile Text.isIdentPart :=
      fun h' => h.2.2 ((List.dropWhile_suffix _).mem h')
    simp [h.2.1, htake, hdrop]
  | case2 => exact h
  | case3 => exact h

/-! ### Slashes -/

/-- Where no slash stands, nothing collapses. -/
theorem collapse_append {p : List Char} (hp : '/' ∉ p) (cs : List Char) :
    collapse (p ++ cs) = p ++ collapse cs := by
  induction p with
  | nil => rfl
  | cons c p ih =>
    rw [List.mem_cons, not_or] at hp
    rw [List.cons_append, collapse, if_neg (by simp [Ne.symm hp.1]), ih hp.2, List.cons_append]

/-- Rows of slashes collapse to one in front of every piece that is not empty, and perhaps one at
the end. -/
theorem collapse_slashed {ps : List (List Char)} (hps : ∀ p ∈ ps, '/' ∉ p) :
    collapse (slashed ps) = slashed (ps.filter (· ≠ []))
      ∨ collapse (slashed ps) = slashed (ps.filter (· ≠ [])) ++ ['/'] := by
  induction ps with
  | nil => exact .inl rfl
  | cons p ps ih =>
    rw [List.forall_mem_cons] at hps
    have hih := ih hps.2
    rcases p with _ | ⟨c, p⟩
    · -- an empty piece: its slash goes, unless it is the last one
      rcases ps with _ | ⟨q, qs⟩
      · exact .inr rfl
      · have hgo : collapse (slashed ([] :: q :: qs)) = collapse (slashed (q :: qs)) := by
          simp [slashed_cons, collapse]
        rw [hgo]
        simpa using hih
    · have hc : c ≠ '/' := fun h => hps.1 (by simp [h])
      have hstay : collapse (slashed ((c :: p) :: ps))
          = '/' :: (c :: p ++ collapse (slashed ps)) := by
        rw [slashed_cons, collapse, if_neg (by simp [hc]), collapse_append hps.1]
      have hkeep : ((c :: p) :: ps).filter (· ≠ []) = (c :: p) :: ps.filter (· ≠ []) := by simp
      rw [hstay, hkeep, slashed_cons]
      rcases hih with h | h
      · exact .inl (by rw [h])
      · exact .inr (by rw [h]; simp)

/-- Pieces that are not empty leave no slash at the end. -/
theorem getLast?_slashed {ps : List (List Char)} (hps : ∀ p ∈ ps, '/' ∉ p) (hne : [] ∉ ps) :
    (slashed ps).getLast? ≠ some '/' := by
  induction ps with
  | nil => simp [slashed]
  | cons p ps ih =>
    rw [List.forall_mem_cons] at hps
    rw [List.mem_cons, not_or] at hne
    intro hlast
    rw [slashed_cons, ← List.cons_append, List.getLast?_append] at hlast
    cases hrest : (slashed ps).getLast? with
    | some c =>
      rw [hrest] at hlast
      exact ih hps.2 hne.2 (hrest.trans hlast)
    | none =>
      rw [hrest, Option.none_or, List.getLast?_cons_of_ne_nil (Ne.symm hne.1)] at hlast
      exact hps.1 (List.mem_of_getLast? hlast)

theorem dropFinalSlash_of_getLast? {cs : List Char} (h : cs.getLast? ≠ some '/') :
    dropFinalSlash cs = cs := by
  simp [dropFinalSlash, h]

theorem dropFinalSlash_concat {cs : List Char} (h : cs ≠ []) :
    dropFinalSlash (cs ++ ['/']) = cs := by
  simp [dropFinalSlash, List.length_pos_iff.2 h]

/-- What is left of the slashes is one in front of every piece that is not empty. -/
theorem dropFinalSlash_collapse {ps : List (List Char)} (hps : ∀ p ∈ ps, '/' ∉ p) (hne : ps ≠ []) :
    dropFinalSlash (collapse (slashed ps)) = '/' :: ['/'].intercalate (ps.filter (· ≠ [])) := by
  have hqs : ∀ p ∈ ps.filter (· ≠ []), '/' ∉ p := fun p hp => hps p (List.mem_of_mem_filter hp)
  have hhead : (collapse (slashed ps)).head? = some '/' := by
    obtain ⟨p, ps, rfl⟩ := List.exists_cons_of_ne_nil hne
    rw [keepsDollars_collapse.head, slashed_cons]
    rfl
  rcases collapse_slashed hps with h | h
  · have hsome : ps.filter (· ≠ []) ≠ [] := by
      intro hnil
      rw [h, hnil] at hhead
      cases hhead
    rw [h, dropFinalSlash_of_getLast? (getLast?_slashed hqs (by simp)),
      slashed_eq_cons_intercalate hsome]
  · rw [h]
    by_cases hnil : ps.filter (· ≠ []) = []
    · -- no piece: the slash at the end is all there is
      rw [hnil]
      rfl
    · have hslashed := slashed_eq_cons_intercalate hnil
      rw [hslashed, dropFinalSlash_concat (List.cons_ne_nil _ _)]

/-! ### Paths -/

/-- The characters of a canonical path: a slash, and then the pieces that are not empty. -/
theorem toList_normalize (path : String) :
    (normalize path).toList = '/' :: ['/'].intercalate ((pieces path).map bracePiece) := by
  rw [normalize]
  split
  · rename_i hempty
    rw [String.isEmpty_iff.1 hempty]
    rfl
  · obtain ⟨ps, hne, hps, hslashed, hfilter⟩ := exists_slashed (Text.trim path.toList)
    have hbraced : ∀ p ∈ ps.map bracePiece, '/' ∉ p := by
      rw [List.forall_mem_map]
      exact fun p hp => slash_notMem_bracePiece (hps p hp)
    have hkept : (ps.map bracePiece).filter (· ≠ []) = (pieces path).map bracePiece := by
      rw [pieces, ← hfilter, List.filter_map]
      simp [Function.comp_def, bracePiece_eq_nil_iff]
    rw [String.toList_ofList, hslashed, braceParams_slashed hps,
      dropFinalSlash_collapse hbraced (by simpa using hne), hkept]

/-- **Paths are made canonical piece by piece.**  The canonical form of a path is a slash, and then
the pieces of the path that are not empty with a slash between two of them; in each piece the
parameter at its start, if there is one, is written in braces. -/
theorem normalize_eq_pieces (path : String) :
    normalize path
      = "/" ++ "/".intercalate ((pieces path).map fun p => String.ofList (bracePiece p)) := by
  rw [← String.toList_inj, toList_normalize]
  simp [String.toList_intercalate, Function.comp_def]

/-- An identifier ends where its characters do; a dollar sign behind another starts none. -/
example : normalize " //users/$id-$page/ /$$x/" = "/users/\x7bid\x7d-$page/ /$$x" := by
  decide +kernel

end DocDirective.Route
