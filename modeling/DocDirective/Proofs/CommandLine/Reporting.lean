import DocDirective.Proofs.CommandLine.Expansion

/-!
# Proofs — Command line — Reporting

What is reported of the directives of a manifest that fail.  Each of them has one error, with the
place of its element, and each error is one block, whether its class raised it alone or in a batch;
the blocks stand in the order of the manifest (`runExpand_reports`).
-/

namespace DocDirective

/-- The line of the element, if it has one, has few enough digits to be written. -/
def Target.Tellable (t : Target) : Prop := ∀ n ∈ t.line, n.natAbs < 10 ^ Overlong.limit

/-! ### Failed attempts -/

/-- An attempt that failed without ending the pass has an error about its directive. -/
theorem Attempt.exists_error {a : Attempt} (h : a.abort? = none) (hf : a.succeeded = false) :
    ∃ e, a.error? = some e ∧ a.fault = some (.reported e) := by
  have hfault := fault_of_abort?_eq_none h
  cases he : a.error? with
  | none =>
    rw [he] at hfault
    rw [succeeded, hfault] at hf
    cases hf
  | some e => exact ⟨e, rfl, by rw [hfault, he, Option.map_some]⟩

theorem Attempt.succeeded_eq_false {a : Attempt} {e : AnnotationError} (h : a.error? = some e) :
    a.succeeded = false := by
  refine eq_false_of_ne_true fun hs => ?_
  rw [error?_of_succeeded hs] at h
  cases h

/-- A directive of a class is about the class itself or one of its members. -/
theorem ClassSource.exists_element {s : ClassSource} {x : Target × Directive}
    (h : x ∈ s.directives) : ∃ e ∈ s.elements, x.1 = e.target := by
  obtain ⟨e, he, hx⟩ := List.mem_flatMap.1 h
  obtain ⟨dir, -, rfl⟩ := List.mem_map.1 hx
  exact ⟨e, he, rfl⟩

namespace CommandLine

/-! ### Errors and their blocks -/

/-- An error of an attempt is about the element, which stands in a file. -/
structure Placed (a : Attempt) (e : AnnotationError) : Prop where
  about : e.About a.target
  file  : ∃ f, f ≠ "" ∧ a.target.file = some f

/-- Where an element of a file stands. -/
def placeIn (file : String) : Option Int → String
  | some n => s!"{file}:{n}"
  | none   => file

/-- The block about a failed attempt: where its element stands, then what is said against its
directive. -/
inductive BlockOf : Attempt → String → Prop
  | intro {a : Attempt} {e : AnnotationError} {file : String}
      (hfault : a.fault = some (.reported e)) (hfile : a.target.file = some file) :
      BlockOf a (placeIn file a.target.line ++ ": " ++ e.message)

theorem BlockOf.exists_message {a : Attempt} {block file : String} (h : BlockOf a block)
    (hfile : a.target.file = some file) :
    ∃ message, block = placeIn file a.target.line ++ ": " ++ message := by
  obtain ⟨-, hfile'⟩ := h
  obtain rfl := Option.some.inj (hfile.symm.trans hfile')
  exact ⟨_, rfl⟩

theorem Placed.isSome_file {a : Attempt} {e : AnnotationError} (h : Placed a e) :
    e.file.isSome = true := by
  obtain ⟨f, -, hf⟩ := h.file
  rw [h.about.file, hf]
  rfl

theorem Placed.blockOf {a : Attempt} {e : AnnotationError} (h : Placed a e)
    (hfault : a.fault = some (.reported e)) : BlockOf a e.block := by
  obtain ⟨f, hne, htarget⟩ := h.file
  have hempty : f.isEmpty = false := by simpa using hne
  have hblock : e.block = placeIn f a.target.line ++ ": " ++ e.message := by
    rw [AnnotationError.block, h.about.file, htarget, h.about.line]
    simp only [hempty, Bool.false_eq_true, if_false]
    cases a.target.line <;> rfl
  rw [hblock]
  exact .intro hfault htarget

/-- The place of an error can be written if the line of the element can. -/
theorem Placed.placeable_iff {a : Attempt} {e : AnnotationError} (h : Placed a e) :
    e.Placeable ↔ a.target.Tellable := by
  unfold AnnotationError.Placeable Target.Tellable
  rw [h.about.line]
  simp only [h.isSome_file, forall_true_left, Numeral.exists_intText_iff]

section Attempts

variable {as : List Attempt}

/-- The blocks of the errors are those of the attempts that failed, in order. -/
theorem forall₂_blockOf (habort : ∀ a ∈ as, a.abort? = none)
    (hplaced : ∀ a ∈ as, ∀ e, a.error? = some e → Placed a e) :
    List.Forall₂ BlockOf (as.filter fun a => !a.succeeded)
      ((as.filterMap (·.error?)).map (·.block)) := by
  induction as with
  | nil => exact .nil
  | cons a as ih =>
    rw [List.forall_mem_cons] at habort hplaced
    have hrest := ih habort.2 hplaced.2
    cases ha : a.succeeded with
    | true =>
      rw [List.filter_cons_of_neg (by simp [ha]),
        List.filterMap_cons_none (Attempt.error?_of_succeeded ha)]
      exact hrest
    | false =>
      obtain ⟨e, he, hfault⟩ := Attempt.exists_error habort.1 ha
      rw [List.filter_cons_of_pos (by simp [ha]), List.filterMap_cons_some he, List.map_cons]
      exact .cons ((hplaced.1 e he).blockOf hfault) hrest

theorem errors_eq_nil_iff (habort : ∀ a ∈ as, a.abort? = none)
    (hplaced : ∀ a ∈ as, ∀ e, a.error? = some e → Placed a e) :
    as.filterMap (·.error?) = [] ↔ (as.filter fun a => !a.succeeded) = [] := by
  have hlen := (forall₂_blockOf habort hplaced).length_eq
  rw [List.length_map] at hlen
  rw [← List.length_eq_zero_iff, ← List.length_eq_zero_iff, hlen]

theorem placeable_iff_tellable (habort : ∀ a ∈ as, a.abort? = none)
    (hplaced : ∀ a ∈ as, ∀ e, a.error? = some e → Placed a e) :
    (∀ e ∈ as.filterMap (·.error?), e.Placeable)
      ↔ ∀ a ∈ as.filter fun a => !a.succeeded, a.target.Tellable := by
  constructor
  · intro h a ha
    obtain ⟨ha, hfailed⟩ := List.mem_filter.1 ha
    obtain ⟨e, he, -⟩ := Attempt.exists_error (habort a ha) (by simpa using hfailed)
    exact (hplaced a ha e he).placeable_iff.1 (h e (List.mem_filterMap.2 ⟨a, ha, he⟩))
  · intro h e he
    obtain ⟨a, ha, he⟩ := List.mem_filterMap.1 he
    refine (hplaced a ha e he).placeable_iff.2 (h a (List.mem_filter.2 ⟨ha, ?_⟩))
    rw [Attempt.succeeded_eq_false he]
    rfl

end Attempts

/-! ### The report of a manifest -/

section Report

variable {read : DocumentReader} {d : Disk} {filling : Filling} {manifest : String}
  {sources : List ClassSource}

/-- The errors about the directives of a manifest have the places of their elements. -/
theorem placed_of_load (hload : Manifest.load read d (.ofText manifest) = .ok sources)
    (hgoesOn : ∀ s ∈ sources, (({} : Processor).expandFresh s).abort? = none) {a : Attempt}
    (ha : a ∈ (sources.map ({} : Processor).expandFresh).flatMap (·.attempts))
    {e : AnnotationError} (he : a.error? = some e) : Placed a e := by
  obtain ⟨q, hq, ha⟩ := List.mem_flatMap.1 ha
  obtain ⟨s, hs, rfl⟩ := List.mem_map.1 hq
  have hchain := Processor.chain_run (hgoesOn s hs)
  -- the element is listed in the manifest, and so stands in a file
  have habout : a.about ∈ s.directives := hchain.map_about ▸ List.mem_map_of_mem ha
  obtain ⟨element, helement, htarget⟩ := s.exists_element habout
  obtain ⟨v, -, hlists⟩ := Manifest.load_lists hload
  obtain ⟨entry, hentry⟩ := exists_of_forall₂ hlists hs
  obtain ⟨f, hf, hne⟩ := hentry.file_ne_empty (Path.text_ofText_ne_empty manifest) helement
  have htarget : a.target = element.target := htarget
  exact ⟨hchain.about rfl ha he, f, hne, htarget ▸ hf⟩

/-- **The failures of a manifest are each reported once.**  Whatever reads its document, where the
kinds that are always there are registered and only errors about directives happen, every directive
of the manifest is attempted, in its order; an element has the file that its entry names, or else
that of its class, or else the manifest, and the line of its entry.  The run prints the descriptors,
which always have a text, and succeeds exactly if no directive fails.  Otherwise it prints nothing
and ends with one, and the errors are one block for each directive that fails, in order, each with
the place of its element in front; but if one of these elements has a line with too many digits, the
run crashes. -/
theorem runExpand_reports (logging : Logging)
    (hload : Manifest.load read d (.ofText manifest) = .ok sources)
    (hfilling : filling.registry = .default)
    (hgoesOn : ∀ s ∈ sources, (({} : Processor).expandFresh s).abort? = none) :
    let passes := sources.map ({} : Processor).expandFresh
    let attempts := passes.flatMap (·.attempts)
    let failed := attempts.filter fun a => !a.succeeded
    let lines := filling.log
      ++ [⟨.debug, "cli", s!"Loaded {sources.length} classes from {manifest}"⟩]
      ++ passes.flatMap (·.log)
    let run := runExpand read d logging filling manifest
    (∃ v, d.readDocument read (.ofText manifest) = .ok v
        ∧ List.Forall₂ (Manifest.Lists (Path.ofText manifest).text) (Manifest.entries v) sources)
      ∧ attempts.map (·.about) = sources.flatMap (·.directives)
      ∧ (failed = [] → ∃ text,
        Json.text (Descriptor.recordAll (passes.map (·.descriptor))) = .ok text
          ∧ run = .ok (logging.succeed lines (text ++ "\n")))
      ∧ ((∃ o, run = .ok o ∧ o.exit = 0) ↔ failed = [])
      ∧ (failed ≠ [] → (∀ a ∈ failed, a.target.Tellable) →
        ∃ blocks, List.Forall₂ BlockOf failed blocks
          ∧ run = .ok (logging.failWith lines ("\n\n".intercalate blocks ++ "\n")))
      ∧ (¬(∀ a ∈ failed, a.target.Tellable) → run = .error (.fault (.overlong .writing))) := by
  intro passes attempts failed lines run
  have habort : ∀ a ∈ attempts, a.abort? = none := by
    intro a ha
    obtain ⟨q, hq, ha⟩ := List.mem_flatMap.1 ha
    obtain ⟨s, hs, rfl⟩ := List.mem_map.1 hq
    exact Processor.abort?_of_pass (hgoesOn s hs) ha
  have hplaced : ∀ a ∈ attempts, ∀ e, a.error? = some e → Placed a e :=
    fun a ha e he => placed_of_load hload hgoesOn ha he
  have herrors : passes.flatMap (·.errors) = attempts.filterMap (·.error?) :=
    List.filterMap_flatMap.symm
  have hfile : ∀ e ∈ attempts.filterMap (·.error?), e.file.isSome = true := by
    intro e he
    obtain ⟨a, ha, he⟩ := List.mem_filterMap.1 he
    exact (hplaced a ha e he).isSome_file
  have hparts : ∀ e ∈ attempts.filterMap (·.error?), e.parts = [e] := by
    intro e he
    obtain ⟨a, ha, he⟩ := List.mem_filterMap.1 he
    exact (hplaced a ha e he).about.parts
  have hrun : run = expandClasses logging (filling.log
      ++ [⟨.debug, "cli", s!"Loaded {sources.length} classes from {manifest}"⟩]) .default
      sources := by
    simp only [run, runExpand, hload, hfilling]
  have hnil := errors_eq_nil_iff habort hplaced
  have htell := placeable_iff_tellable habort hplaced
  have hclean (hnone : failed = []) : ∃ text,
      Json.text (Descriptor.recordAll (passes.map (·.descriptor))) = .ok text
        ∧ run = .ok (logging.succeed lines (text ++ "\n")) := by
    have hfaults : ∀ s ∈ sources, (({} : Processor).expandFresh s).fault = none := by
      intro s hs
      have hnoerrors := List.flatMap_eq_nil_iff.1 (herrors.trans (hnil.2 hnone))
      exact fault_eq_none_of_clean (hgoesOn s hs) (hnoerrors _ (List.mem_map_of_mem hs))
    obtain ⟨text, htext, hprint⟩ :=
      print_of_printable logging lines (not_holdsOverlong_expandFresh sources)
    exact ⟨text, htext, hrun.trans ((expandClasses_clean hfaults).trans hprint)⟩
  have hreport (hsome : failed ≠ []) (hall : ∀ a ∈ failed, a.target.Tellable) :
      run = .ok (logging.failWith lines
        (AnnotationError.report (attempts.filterMap (·.error?)))) :=
    hrun.trans (expandClasses_reported hgoesOn herrors (fun h => hsome (hnil.1 h)) hparts hfile
      (htell.2 hall))
  have hcrash (hnot : ¬∀ a ∈ failed, a.target.Tellable) :
      run = .error (.fault (.overlong .writing)) :=
    hrun.trans (expandClasses_crashed hgoesOn herrors hparts hfile fun h => hnot (htell.1 h))
  refine ⟨Manifest.load_lists hload, ?_, hclean, ⟨?_, ?_⟩, fun hsome hall => ?_, hcrash⟩
  · rw [List.map_flatMap, List.flatMap_map]
    exact List.flatMap_congr fun s hs => (Processor.chain_run (hgoesOn s hs)).map_about
  · rintro ⟨o, ho, hexit⟩
    by_contra hsome
    by_cases hall : ∀ a ∈ failed, a.target.Tellable
    · cases ho.symm.trans (hreport hsome hall)
      cases hexit
    · cases ho.symm.trans (hcrash hall)
  · intro hnone
    obtain ⟨text, -, hprinted⟩ := hclean hnone
    exact ⟨_, hprinted, rfl⟩
  · exact ⟨_, forall₂_blockOf habort hplaced, hreport hsome hall⟩

end Report

/-- A disk with a manifest of a class and a method on some line, both with unknown directives. -/
def strayDisk : Disk where
  cwd   := ⟨1, ["work"]⟩
  nodes := [(["work", "m"], .file ("- name: B\n  comment: '!X'\n  members:\n"
    ++ "  - name: f\n    kind: method\n    line: 9\n    comment: '!Y'\n").toUTF8.toList)]

/-- The value of that manifest, a class with a method. -/
def strayDocument : Value := .list [.record [
  ("name",    .text "B"),
  ("comment", .text "!X"),
  ("members", .list [.record [
    ("name",    .text "f"),
    ("kind",    .text "method"),
    ("line",    .int 9),
    ("comment", .text "!Y")]])]]

/-- The class that the manifest lists. -/
def strays : ClassSource where
  target  := .forClass "B" (some "m") none []
  comment := "!X"
  members := [⟨⟨.ofMethod, "B", "f", some "m", some 9, []⟩, "!Y"⟩]

theorem load_strays :
    Manifest.load (fun _ => .ok strayDocument) strayDisk (.ofText "m") = .ok [strays] := by
  rw [ofText_m]
  exact ok_of_toOption (by decide +kernel)

theorem expandFresh_strays :
    let q := ({} : Processor).expandFresh strays
    q.abort? = none
      ∧ (q.attempts.filter fun a => !a.succeeded).map (·.target)
        = [.forClass "B" (some "m") none [], ⟨.ofMethod, "B", "f", some "m", some 9, []⟩] := by
  have hrun : (let q := ({} : Processor).expandFresh strays
      q.abort?.isNone && (q.attempts.filter fun a => !a.succeeded).map (·.target)
        == [.forClass "B" (some "m") none [], ⟨.ofMethod, "B", "f", some "m", some 9, []⟩])
      = true := by
    decide +kernel
  simpa only [Bool.and_eq_true, Option.isNone_iff_eq_none, beq_iff_eq] using hrun

theorem runExpand_reports_strays :
    ∃ lines m₁ m₂, runExpand (fun _ => .ok strayDocument) strayDisk ⟨false, none⟩
        (({} : Selection).populate {}) "m"
      = .ok (Logging.failWith ⟨false, none⟩ lines
        ("\n\n".intercalate ["m" ++ ": " ++ m₁, "m:9" ++ ": " ++ m₂] ++ "\n")) := by
  obtain ⟨habort, htargets⟩ := expandFresh_strays
  have hfilling : (({} : Selection).populate {}).registry = .default := populate_default rfl
  obtain ⟨-, -, -, -, hreport, -⟩ := runExpand_reports ⟨false, none⟩ load_strays hfilling
    (List.forall_mem_singleton.2 habort)
  simp only [List.map_cons, List.map_nil, List.flatMap_cons, List.flatMap_nil,
    List.append_nil] at hreport
  generalize (({} : Processor).expandFresh strays).attempts.filter (fun a => !a.succeeded)
    = failed at htargets hreport
  -- there are two failed attempts, of which one has a line
  obtain ⟨a₁, rest, rfl, h₁, hrest⟩ := List.map_eq_cons_iff.1 htargets
  obtain ⟨a₂, rest, rfl, h₂, hnil⟩ := List.map_eq_cons_iff.1 hrest
  obtain rfl := List.map_eq_nil_iff.1 hnil
  have htellable : ∀ a ∈ [a₁, a₂], a.target.Tellable := by
    rw [List.forall_mem_cons, List.forall_mem_singleton, Target.Tellable, Target.Tellable, h₁, h₂]
    refine ⟨nofun, ?_⟩
    rintro n ⟨⟩
    have hten : 10 ^ 1 ≤ 10 ^ Overlong.limit := Nat.pow_le_pow_right (by decide) (by decide)
    exact Nat.lt_of_lt_of_le (by decide) hten
  obtain ⟨blocks, hblocks, hrun⟩ := hreport (List.cons_ne_nil _ _) htellable
  obtain ⟨b₁, bs, hb₁, htail, rfl⟩ := List.forall₂_cons_left_iff.1 hblocks
  obtain ⟨b₂, bs, hb₂, hend, rfl⟩ := List.forall₂_cons_left_iff.1 htail
  obtain rfl := List.forall₂_nil_left_iff.1 hend
  obtain ⟨m₁, rfl⟩ := hb₁.exists_message (show a₁.target.file = some "m" by rw [h₁]; rfl)
  obtain ⟨m₂, rfl⟩ := hb₂.exists_message (show a₂.target.file = some "m" by rw [h₂])
  have hplace : placeIn "m" (some 9) = "m:9" := by decide
  rw [h₁, h₂, hplace] at hrun
  exact ⟨_, m₁, m₂, hrun⟩

end CommandLine

end DocDirective
