import DocDirective.Proofs.Route.Segments
import DocDirective.Proofs.Text.Blank

/-!
# Proofs — Route — Joining

A route below a path is told by segments, which is what stands between the slashes and is not
empty: those of the path, then those of the route, each with its parameter in braces
(`segments_join`).  The path is made canonical before the route is put behind it, and both are made
canonical again; the second time finds every segment of the path settled (`bracePiece_bracePiece`),
and the slash at the seam keeps the blanks of one side from the trimming of the other.
-/

namespace DocDirective.Route

/-- What stands between the slashes of a text, where it is not empty. -/
def segments (cs : List Char) : List (List Char) := (cs.splitOn '/').filter (· ≠ [])

/-! ### Segments -/

theorem pieces_eq_segments (path : String) : pieces path = segments (Text.trim path.toList) := rfl

theorem segments_append_slash (cs ds : List Char) :
    segments (cs ++ '/' :: ds) = segments cs ++ segments ds := by
  rw [segments, List.splitOn_append_cons_self, List.filter_append]
  rfl

theorem segments_slash (cs : List Char) : segments ('/' :: cs) = segments cs :=
  segments_append_slash [] cs

/-- No segment is empty, and none has a slash. -/
theorem of_mem_segments {cs p : List Char} (h : p ∈ segments cs) : p ≠ [] ∧ '/' ∉ p := by
  obtain ⟨hmem, hne⟩ := List.mem_filter.1 h
  exact ⟨of_decide_eq_true hne, slash_notMem_of_mem_splitOn hmem⟩

/-- Texts with a slash between two of them are the segments of the whole. -/
theorem segments_intercalate {ps : List (List Char)} (hne : ∀ p ∈ ps, p ≠ [])
    (hps : ∀ p ∈ ps, '/' ∉ p) : segments (['/'].intercalate ps) = ps := by
  cases ps with
  | nil => rfl
  | cons p ps =>
    rw [segments, List.splitOn_intercalate '/' hps (List.cons_ne_nil p ps), List.filter_eq_self]
    exact fun q hq => decide_eq_true (hne q hq)

/-- A segment in braces is not put in braces again. -/
theorem bracePiece_bracePiece (p : List Char) : bracePiece (bracePiece p) = bracePiece p := by
  fun_cases bracePiece p with
  | case1 c rest hc => rfl
  | case2 c rest hc => rw [bracePiece, if_neg hc]
  | case3 p hp => rw [bracePiece]; exact hp

/-! ### Paths -/

/-- The segments of a canonical path are those of the path without the blanks at its ends, with
their parameters in braces. -/
theorem segments_normalize (path : String) :
    segments (normalize path).toList = (pieces path).map bracePiece := by
  have hpieces (p : List Char) (hp : p ∈ pieces path) : p ≠ [] ∧ '/' ∉ p := of_mem_segments hp
  rw [toList_normalize, segments_slash]
  refine segments_intercalate ?_ ?_
  · rw [List.forall_mem_map]
    exact fun p hp => mt bracePiece_eq_nil_iff.1 (hpieces p hp).1
  · rw [List.forall_mem_map]
    exact fun p hp => slash_notMem_bracePiece (hpieces p hp).2

/-- Only a path without segments comes to a single slash. -/
theorem normalize_eq_slash_iff {path : String} : normalize path = "/" ↔ pieces path = [] := by
  constructor
  · intro h
    have hsegments := segments_normalize path
    rw [h] at hsegments
    exact List.map_eq_nil_iff.1 hsegments.symm
  · intro h
    rw [← String.toList_inj, toList_normalize, h]
    rfl

variable {base route : String}

/-- A route that does not start with a slash is put behind the canonical form of its base. -/
theorem join_of_relative (hbase : base ≠ "") (hroute : route.toList.head? ≠ some '/') :
    join base route = normalize (normalize base ++ "/" ++ route) := by
  have hempty : base.isEmpty = false := by simpa using hbase
  rw [join, if_neg (by simp [hroute, hempty])]

/-- The slash in front and the one at the seam keep apart what trimming does: of the base nothing
is trimmed, and the route at its end only. -/
theorem pieces_below (base route : String) :
    pieces (normalize base ++ "/" ++ route)
      = (pieces base).map bracePiece ++ segments (Text.trimEnd route.toList) := by
  have hslash : Text.isBlank '/' = false := by decide
  have hseam : (normalize base ++ "/" ++ route).toList
      = (normalize base).toList ++ '/' :: route.toList := by
    simp
  have hstart : Text.trimStart ((normalize base).toList ++ '/' :: route.toList)
      = (normalize base).toList ++ '/' :: route.toList := by
    rw [toList_normalize, List.cons_append, Text.trimStart_cons _ hslash]
  rw [pieces_eq_segments, hseam, Text.trim, hstart, Text.trimEnd_append_cons _ hslash,
    segments_append_slash, segments_normalize]

/-- The pieces of a base and of a route below it, with their parameters in braces. -/
theorem map_bracePiece_below (base route : String) :
    (pieces (normalize base ++ "/" ++ route)).map bracePiece
      = (pieces base ++ segments (Text.trimEnd route.toList)).map bracePiece := by
  rw [pieces_below, List.map_append, List.map_append, List.map_map]
  simp only [Function.comp_def, bracePiece_bracePiece]

/-- **Joining puts segments behind segments.**  The segments of a route below a path are those of
the path without the blanks at its ends, then those of the route without the blanks behind it, in
their order, and each with its parameter in braces.  Only where there are none on either side is
the joined path a single slash. -/
theorem segments_join (hbase : base ≠ "") (hroute : route.toList.head? ≠ some '/') :
    segments (join base route).toList
        = (segments (Text.trim base.toList) ++ segments (Text.trimEnd route.toList)).map bracePiece
      ∧ (join base route = "/"
        ↔ segments (Text.trim base.toList) = [] ∧ segments (Text.trimEnd route.toList) = []) := by
  rw [join_of_relative hbase hroute]
  refine ⟨(segments_normalize _).trans (map_bracePiece_below base route), ?_⟩
  rw [normalize_eq_slash_iff, pieces_below, List.append_eq_nil_iff, List.map_eq_nil_iff,
    pieces_eq_segments]

/-- A blank in front of the seam stays, and behind it a dollar sign that is not at the start of a
segment. -/
theorem segments_join_blankSeam :
    "$team /" ≠ "" ∧ " $id//$page ".toList.head? ≠ some '/'
      ∧ (segments (join "$team /" " $id//$page ").toList).map String.ofList
        = ["\x7bteam\x7d ", " $id", "\x7bpage\x7d"]
      ∧ join "$team /" " $id//$page " ≠ "/" := by
  have hbase : "$team /" ≠ "" := by decide
  have hroute : " $id//$page ".toList.head? ≠ some '/' := by decide
  obtain ⟨hsegments, hslash⟩ := segments_join hbase hroute
  refine ⟨hbase, hroute, ?_, fun h => absurd (hslash.1 h).1 (by decide +kernel)⟩
  rw [hsegments]
  decide +kernel

end DocDirective.Route
