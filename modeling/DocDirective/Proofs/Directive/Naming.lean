import DocDirective.Proofs.Directive.Comment
import DocDirective.Proofs.Directive.Segment

/-!
# Proofs — Directive — Naming

The name that a written directive comes back under.  The scan gives identifiers only, the longest
there are (`isIdentifier_of_mem_scan`), and the writer puts the name behind the mark without a look
at it: whether a directive can be written depends on its values alone (`exists_render_iff`).  So a
directive is scanned under the name that it was written with exactly if that name is an identifier
(`scan_render`).
-/

namespace DocDirective.Directive

open Arguments (render renderValue renderKeyed)

variable {name r : String} {positional : List Value} {keyed : Keyed Value}

/-! ### Names that the scan gives -/

theorem Tells.isIdentifier {ss : List Segment} {ds : List Directive} (h : Tells ss ds) :
    ∀ d ∈ ds, Text.isIdentifier d.name.toList = true := by
  induction h with
  | nil => exact fun _ hd => nomatch hd
  | silent _ _ ih => exact ih
  | directive hgives _ ih =>
    obtain ⟨_, _, hname, _⟩ := hgives
    refine List.forall_mem_cons.2 ⟨?_, ih⟩
    rwa [String.toList_ofList]

theorem isIdentifier_of_mem_scan {comment : String} {d : Directive} (h : d ∈ scan comment) :
    Text.isIdentifier d.name.toList = true := by
  obtain ⟨ss, hcut⟩ := exists_cut 0 comment.toList
  obtain ⟨ds, htells⟩ := exists_tells ss
  rw [scan, hcut.scanFrom_eq htells] at h
  exact htells.isIdentifier d h

/-! ### Names that are written -/

/-- A directive can be written if its values can, whatever its name is. -/
theorem exists_render_iff : (∃ r, render name positional keyed = .ok r)
    ↔ (∃ ps, positional.mapM renderValue = .ok ps)
      ∧ ∃ ks, keyed.entries.mapM renderKeyed = .ok ks := by
  constructor
  · rintro ⟨r, h⟩
    obtain ⟨ps, ks, hps, hks, -⟩ := Arguments.render_eq h
    exact ⟨⟨ps, hps⟩, ks, hks⟩
  · rintro ⟨⟨ps, hps⟩, ks, hks⟩
    rw [render, hps, hks]
    exact ⟨_, rfl⟩

/-- A written directive whose name is an identifier is all that is scanned. -/
theorem scan_render_of_isIdentifier (h : render name positional keyed = .ok r)
    (hname : Text.isIdentifier name.toList = true) : ∃ d, scan r = [d] ∧ d.name = name := by
  obtain ⟨args, hargs, hr, -⟩ := toList_of_render h
  have hblanks : ∀ c ∈ ([] : List Char), isGap c = true := fun _ hc => nomatch hc
  obtain ⟨next, hscan⟩ := scanFrom_written 0 hname hargs hblanks .text
  rw [List.append_nil, List.append_nil, ← hr] at hscan
  exact ⟨_, hscan.trans (by rw [scanFrom]), String.ofList_toList⟩

/-- The first directive in a written one has the identifier in front of the name as its own. -/
theorem scan_render_of_spanIdentifier (h : render name positional keyed = .ok r)
    {front rest : List Char} (hspan : Text.spanIdentifier name.toList = some (front, rest)) :
    ∃ d ds, scan r = d :: ds ∧ d.name = String.ofList front := by
  obtain ⟨args, -, hr, -⟩ := toList_of_render h
  obtain ⟨hname, hfront, hrest⟩ := Text.of_spanIdentifier hspan
  have hstop : ∀ c ∈ (rest ++ if args.toList = [] then [] else ' ' :: args.toList).head?,
      Text.isIdentPart c = false := by
    intro c hc
    cases rest with
    | nil =>
      rw [List.nil_append] at hc
      split_ifs at hc
      · cases hc
      · obtain rfl := Option.some.inj hc
        decide
    | cons d rest => exact hrest c hc
  have hscan := scanFrom_mark 0 hfront hstop
  rw [← List.append_assoc, ← hname, ← hr] at hscan
  exact ⟨_, _, hscan, rfl⟩

/-- **A written directive comes back under its name exactly if that name is an identifier.**  Then
it is the only directive in what is written.  Any other name is written all the same, and no
directive comes back under it: if the name starts like an identifier, the first one that does is
named by that start. -/
theorem scan_render (h : render name positional keyed = .ok r) :
    (∀ other, ∃ r, render other positional keyed = .ok r)
      ∧ (Text.isIdentifier name.toList = true → ∃ d, scan r = [d] ∧ d.name = name)
      ∧ (Text.isIdentifier name.toList = false → ∀ d ∈ scan r, d.name ≠ name)
      ∧ ∀ front rest, Text.spanIdentifier name.toList = some (front, rest) →
        ∃ d ds, scan r = d :: ds ∧ d.name = String.ofList front := by
  refine ⟨fun other => ?_, scan_render_of_isIdentifier h, fun hname d hd heq => ?_,
    fun front rest hspan => scan_render_of_spanIdentifier h hspan⟩
  · exact exists_render_iff.2 (exists_render_iff.1 ⟨r, h⟩)
  · have hidentifier := isIdentifier_of_mem_scan hd
    rw [heq, hname] at hidentifier
    cases hidentifier

/-- A name of two words is written, and comes back as its first word. -/
theorem scan_render_twoWords :
    render "a b" [.bool true] .empty = .ok "!a b true"
      ∧ (∀ d ∈ scan "!a b true", d.name ≠ "a b")
      ∧ ∃ d ds, scan "!a b true" = d :: ds ∧ d.name = "a" := by
  have hwritten : render "a b" [.bool true] .empty = .ok "!a b true" := rfl
  obtain ⟨-, -, hother, hfront⟩ := scan_render hwritten
  exact ⟨hwritten, hother (by decide), hfront ['a'] [' ', 'b'] (by decide)⟩

end DocDirective.Directive
