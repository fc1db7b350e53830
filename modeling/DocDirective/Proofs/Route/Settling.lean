import DocDirective.Proofs.Route.Joining

/-!
# Proofs — Route — Settling

When a canonical path is its own canonical form.  Making it canonical again finds no parameter and
no row of slashes to rewrite, so all that a second time can do is trim the end
(`toList_normalize_of_canonical`).  There is something to trim where the last piece ends with a
blank: the slash behind it kept the blank from being trimmed the first time, and is gone the
second.  Every other canonical form is settled, and a route comes to the same below it as below
the path that it is the form of (`normalize_settles`).
-/

namespace DocDirective.Route

/-! ### Rewritings with nothing to do -/

theorem exists_isIdentStart {cs name after : List Char}
    (h : Text.spanIdentifier cs = some (name, after)) :
    ∃ c rest, cs = c :: rest ∧ Text.isIdentStart c = true := by
  cases cs with
  | nil => cases h
  | cons c rest =>
    refine ⟨c, rest, rfl, ?_⟩
    by_contra hc
    rw [Text.spanIdentifier, if_neg hc] at h
    cases h

theorem braceParams_of_braced {cs : List Char} (h : Braced cs) : braceParams cs = cs := by
  fun_induction braceParams cs with
  | case1 => rfl
  | case2 c rest hc name after hspan _ ih =>
    -- a parameter would have its braces
    obtain ⟨ds, rfl⟩ := List.head?_eq_some_iff.1 hc.2
    obtain ⟨d, es, rfl, hd⟩ := exists_isIdentStart hspan
    exact absurd (List.prefix_append ['$', d] es) ((braced_cons_iff.1 h).1 hc.1 d hd)
  | case3 c rest hc hspan ih => rw [ih (braced_cons_iff.1 h).2]
  | case4 c rest hc ih => rw [ih (braced_cons_iff.1 h).2]

theorem collapse_of_single {cs : List Char} (h : ¬ ['/', '/'] <:+: cs) : collapse cs = cs := by
  induction cs with
  | nil => rfl
  | cons c cs ih =>
    rw [List.infix_cons_iff, not_or] at h
    have hrow : ¬ (c = '/' ∧ cs.head? = some '/') := by
      rintro ⟨rfl, hhead⟩
      obtain ⟨ds, rfl⟩ := List.head?_eq_some_iff.1 hhead
      exact h.1 (List.prefix_append ['/', '/'] ds)
    rw [collapse, if_neg (by simpa using hrow), ih h.2]

/-! ### Canonical paths -/

theorem trimEnd_isPrefix (cs : List Char) : Text.trimEnd cs <+: cs := List.rdropWhile_prefix _ cs

theorem trimEnd_eq_self_iff {cs : List Char} :
    Text.trimEnd cs = cs ↔ ∀ c ∈ cs.getLast?, Text.isBlank c = false := by
  refine (List.rdropWhile_eq_self_iff ..).trans ⟨fun h c hc => ?_, fun h hne => ?_⟩
  · obtain ⟨hne, rfl⟩ := List.mem_getLast?_eq_getLast hc
    exact eq_false_of_ne_true (h hne)
  · exact ne_true_of_eq_false (h _ (List.getLast?_eq_some_getLast hne))

variable {path : String}

/-- Making a canonical path canonical again trims its end, and drops the slash that comes to
stand there. -/
theorem toList_normalize_of_canonical (h : Canonical path) :
    (normalize path).toList = dropFinalSlash (Text.trimEnd path.toList) := by
  have hslash : Text.isBlank '/' = false := by decide
  obtain ⟨cs, hcs⟩ := List.head?_eq_some_iff.1 h.head
  have hempty : ¬ path.isEmpty = true := by
    intro hempty
    rw [String.isEmpty_iff.1 hempty] at hcs
    cases hcs
  have htrim : Text.trim path.toList = Text.trimEnd path.toList := by
    rw [hcs, Text.trim, Text.trimStart_cons cs hslash]
  have hhead : (Text.trimEnd path.toList).head? = some '/' := by
    rw [hcs]
    exact congrArg List.head? (Text.trimEnd_append_cons [] hslash cs)
  have hinside := (trimEnd_isPrefix path.toList).isInfix
  have hbraced : Braced (Text.trimEnd path.toList) :=
    fun c hc hparam => h.parameter c hc (hparam.trans hinside)
  have hsingle : ¬ ['/', '/'] <:+: Text.trimEnd path.toList :=
    fun hrow => h.single (hrow.trans hinside)
  rw [normalize, if_neg hempty, String.toList_ofList, htrim, withSlash, if_pos hhead,
    braceParams_of_braced hbraced, collapse_of_single hsingle]

theorem dropFinalSlash_of_canonical (h : Canonical path) :
    dropFinalSlash path.toList = path.toList := by
  by_cases hlast : path.toList.getLast? = some '/'
  · rw [h.final hlast]
    rfl
  · exact dropFinalSlash_of_getLast? hlast

/-- A canonical path is its own canonical form unless it ends with a blank. -/
theorem normalize_eq_self_iff (h : Canonical path) :
    normalize path = path ↔ ∀ c ∈ path.toList.getLast?, Text.isBlank c = false := by
  rw [← String.toList_inj, toList_normalize_of_canonical h, ← trimEnd_eq_self_iff]
  constructor
  · intro hself
    -- nothing is left to be trimmed, since what is trimmed is as long as the path
    have hprefix := prefix_dropFinalSlash (Text.trimEnd path.toList)
    rw [hself] at hprefix
    exact (trimEnd_isPrefix path.toList).eq_of_length_le hprefix.length_le
  · intro htrim
    rw [htrim, dropFinalSlash_of_canonical h]

/-! ### Last pieces -/

/-- The text ends with a blank. -/
def EndsBlank (cs : List Char) : Prop := ∃ c ∈ cs.getLast?, Text.isBlank c = true

/-- The last piece of a path ends with a blank, which a slash behind it keeps from being
trimmed. -/
def Frayed (path : String) : Prop := ∃ p ∈ (pieces path).getLast?, EndsBlank p

theorem EndsBlank.exists_mem {cs : List Char} (h : EndsBlank cs) :
    ∃ c ∈ cs, Text.isBlank c = true := by
  obtain ⟨c, hc, hblank⟩ := h
  exact ⟨c, List.mem_of_getLast? hc, hblank⟩

theorem endsBlank_append_iff (cs : List Char) {ds : List Char} (h : ds ≠ []) :
    EndsBlank (cs ++ ds) ↔ EndsBlank ds := by
  rw [EndsBlank, List.getLast?_append_of_ne_nil cs h]
  rfl

/-- Braces leave a blank at the end of a piece where it is, and bring none there. -/
theorem endsBlank_bracePiece_iff {p : List Char} : EndsBlank (bracePiece p) ↔ EndsBlank p := by
  fun_cases bracePiece p with
  | case1 c rest hc =>
    rcases hdrop : rest.dropWhile Text.isIdentPart with _ | ⟨d, ds⟩
    · -- the parameter is all of the piece: it ends with a brace, and ended with its name
      have hrest : ∀ d ∈ rest, Text.isIdentPart d = true := List.dropWhile_eq_nil_iff.1 hdrop
      have hname : ∀ d ∈ c :: rest, Text.isIdentPart d = true := by
        rw [List.forall_mem_cons]
        exact ⟨by simp [Text.isIdentPart, hc], hrest⟩
      have hbrace : ¬ EndsBlank ['\x7d'] := by
        rintro ⟨d, hd, hblank⟩
        cases hd
        exact absurd hblank (by decide)
      rw [endsBlank_append_iff _ (List.cons_ne_nil _ _)]
      refine iff_of_false hbrace fun h => ?_
      have hlast := (endsBlank_append_iff ['$'] (List.cons_ne_nil c rest)).1 h
      obtain ⟨d, hd, hblank⟩ := hlast.exists_mem
      exact absurd (hname d hd) (ne_true_of_eq_false (Text.isIdentPart_of_isBlank hblank))
    · have hsplit : '$' :: c :: rest = '$' :: c :: rest.takeWhile Text.isIdentPart ++ d :: ds := by
        rw [← hdrop, List.cons_append, List.cons_append, List.takeWhile_append_dropWhile]
      rw [hsplit, List.append_cons, endsBlank_append_iff _ (List.cons_ne_nil d ds),
        endsBlank_append_iff _ (List.cons_ne_nil d ds)]
  | case2 => rfl
  | case3 => rfl

/-- A canonical path ends with a blank exactly if its last piece does. -/
theorem endsBlank_normalize_iff : EndsBlank (normalize path).toList ↔ Frayed path := by
  rcases List.eq_nil_or_concat (pieces path) with hnil | ⟨ps, p, hconcat⟩
  · have hslash : ¬ EndsBlank ['/'] := by
      rintro ⟨c, hc, hblank⟩
      cases hc
      exact absurd hblank (by decide)
    rw [Frayed, hnil, normalize_eq_slash_iff.2 hnil]
    exact iff_of_false hslash fun ⟨p, hp, _⟩ => Option.not_mem_none p hp
  · have hp : bracePiece p ≠ [] := by
      have hmem : p ∈ pieces path := by simp [hconcat]
      exact mt bracePiece_eq_nil_iff.1 (of_mem_segments hmem).1
    have hlast : (normalize path).toList
        = (slashed (ps.map bracePiece) ++ ['/']) ++ bracePiece p := by
      rw [toList_normalize, ← slashed_eq_cons_intercalate (by simp [hconcat]), hconcat]
      simp [slashed]
    rw [hlast, endsBlank_append_iff _ hp, endsBlank_bracePiece_iff, Frayed, hconcat]
    simp

/-! ### Once more -/

/-- A canonical form is settled unless the last piece of its path ends with a blank. -/
theorem normalize_normalize_iff : normalize (normalize path) = normalize path ↔ ¬ Frayed path := by
  rw [normalize_eq_self_iff (canonical_normalize path), ← endsBlank_normalize_iff, EndsBlank]
  simp only [not_exists, not_and, Bool.not_eq_true]

theorem normalize_ne_empty (path : String) : normalize path ≠ "" := by
  intro hempty
  have hhead := (canonical_normalize path).head
  rw [hempty] at hhead
  cases hhead

/-- A route that does not start with a slash comes to the same below a canonical form as below its
path exactly if the form is settled. -/
theorem join_normalize_iff {route : String} (hpath : path ≠ "")
    (hroute : route.toList.head? ≠ some '/') :
    join (normalize path) route = join path route
      ↔ normalize (normalize path) = normalize path := by
  rw [join_of_relative hpath hroute, join_of_relative (normalize_ne_empty path) hroute]
  constructor
  · intro hjoin
    -- the segments of the route are the same on both sides, and those in front are what is left
    have hsegments := congrArg (fun p => segments p.toList) hjoin
    simp only [segments_normalize, map_bracePiece_below, List.map_append,
      List.append_cancel_right_eq] at hsegments
    rw [← String.toList_inj, toList_normalize, toList_normalize path, hsegments]
  · intro hsettled
    rw [hsettled]

/-- **Which canonical forms are settled.**  The canonical form of a path is its own canonical form
exactly if the last piece of the path does not end with a blank.  A route comes to the same below
the canonical form of a path as below the path in that case, and where it starts with a slash, and
in no other. -/
theorem normalize_settles (path : String) :
    (normalize (normalize path) = normalize path ↔ ¬ Frayed path)
      ∧ ∀ route, path ≠ "" → (join (normalize path) route = join path route
        ↔ route.toList.head? = some '/' ∨ ¬ Frayed path) := by
  refine ⟨normalize_normalize_iff, fun route hpath => ?_⟩
  by_cases hroute : route.toList.head? = some '/'
  · simp [join, hroute]
  · rw [join_normalize_iff hpath hroute, normalize_normalize_iff]
    simp [hroute]

/-- The blank in front of the last slash comes to the end, and is gone the next time. -/
theorem normalize_settles_blankSlash :
    normalize "a /" = "/a " ∧ normalize (normalize "a /") = "/a"
      ∧ Frayed "a /" ∧ join (normalize "a /") "x" ≠ join "a /" "x" := by
  have hframe : normalize "a /" = "/a " := by decide +kernel
  have hagain : normalize (normalize "a /") = "/a" := by decide +kernel
  obtain ⟨hsettled, hjoin⟩ := normalize_settles "a /"
  have hfrayed : Frayed "a /" := by
    by_contra h
    have heq := hsettled.2 h
    rw [hagain, hframe] at heq
    exact absurd heq (by decide)
  refine ⟨hframe, hagain, hfrayed, fun h => ?_⟩
  rcases (hjoin "x" (by decide)).1 h with hhead | hnot
  · exact absurd hhead (by decide)
  · exact hnot hfrayed

end DocDirective.Route
