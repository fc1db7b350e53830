import DocDirective.CommandLine.Run
import DocDirective.Proofs.Manifest.Listing
import DocDirective.Proofs.Processor.Batching
import DocDirective.Proofs.Report.Printing

/-!
# Proofs — Command line — Expansion

What the expansion of a manifest comes to.  Every class is passed over by itself, and errors about
directives do not keep the run from the classes behind them.  It ends in one of three ways: without
any error it prints the descriptors, if they can be printed; otherwise it reports the errors of all
classes, unless one of them has a line number with too many digits, with which neither a batch nor a
report can be made.
-/

namespace DocDirective.CommandLine

variable {p : Processor} {ss : List ClassSource}

/-- Where nothing is selected and there are no plugins, the registry has the kinds that are always
there. -/
theorem populate_default {plugins : Plugins} (h : plugins.entryPoints = []) :
    (({} : Selection).populate plugins).registry = .default := by
  have hsteps : ({} : Selection).steps plugins = Selection.builtinSteps none := by
    simp [Selection.steps, h, EntryPoint.steps]
  rw [Selection.populate, hsteps]
  rfl

/-- The path that one letter writes. -/
theorem ofText_m : Path.ofText "m" = ⟨0, ["m"]⟩ := by
  have hsplit : "m".splitOn "/" = ["m"] := by
    -- two steps: over the letter, and at the end of the text
    rw [String.splitOn, if_neg (by decide), String.splitOnAux, if_neg (by decide),
      if_neg (by decide), String.splitOnAux, if_pos (by decide)]
    decide
  rw [Path.ofText, hsplit]
  decide

/-! ### Faults that end the run -/

/-- A pass that goes on to its end lets the run go on too, unless a batch of its errors cannot be
made. -/
theorem runFault?_cases {q : Pass} (h : q.abort? = none) :
    runFault? q = none
      ∨ runFault? q = some (.overlong .writing) ∧ ¬∀ e ∈ q.errors, e.Placeable := by
  have hraised := Processor.raisedAs_fault h
  unfold runFault?
  generalize q.fault = f? at hraised ⊢
  cases hraised with
  | nothing            => exact .inl rfl
  | alone              => exact .inl rfl
  | batch              => exact .inl rfl
  | overlong _ hplaces => exact .inr ⟨rfl, hplaces⟩

/-- A pass without a fault goes on to its end and has no errors. -/
theorem clean_of_fault_eq_none {q : Pass} (h : q.fault = none) :
    q.abort? = none ∧ q.errors = [] := by
  have habort := (Option.or_eq_none_iff.1 h).1
  have hraised := Processor.raisedAs_fault habort
  rw [h] at hraised
  cases hraised with
  | nothing hes => exact ⟨habort, hes⟩

theorem fault_eq_none_of_clean {q : Pass} (h : q.abort? = none) (hnone : q.errors = []) :
    q.fault = none := by
  rw [Processor.fault_of_abort?_eq_none h, hnone]
  rfl

/-- The classes are all passed over, unless a batch of errors cannot be made. -/
theorem expandAll_cases (h : ∀ s ∈ ss, (p.expandFresh s).abort? = none) :
    expandAll p ss = .ok (ss.map p.expandFresh)
      ∨ expandAll p ss = .error (.overlong .writing)
        ∧ ¬∀ e ∈ (ss.map p.expandFresh).flatMap (·.errors), e.Placeable := by
  induction ss with
  | nil => exact .inl rfl
  | cons s ss ih =>
    obtain ⟨hs, hss⟩ := List.forall_mem_cons.1 h
    rw [List.map_cons, List.flatMap_cons]
    obtain hnone | ⟨hfault, hplaces⟩ := runFault?_cases hs
    · obtain hrest | ⟨hrest, hplaces⟩ := ih hss
      · exact .inl (by simp only [expandAll, hnone, hrest, Except.map])
      · refine .inr ⟨by simp only [expandAll, hnone, hrest, Except.map], fun hall => ?_⟩
        exact hplaces fun e he => hall e (List.mem_append_right _ he)
    · refine .inr ⟨by simp only [expandAll, hfault], fun hall => ?_⟩
      exact hplaces fun e he => hall e (List.mem_append_left _ he)

/-- Errors with files are as good for blocks as they are for a batch. -/
theorem placeFault?_eq {es : List AnnotationError} (h : ∀ e ∈ es, e.file.isSome = true) :
    placeFault? es = (es.findSome? (·.placeOverlong?)).map .overlong := by
  rw [placeFault?]
  congr 1
  induction es with
  | nil => rfl
  | cons e es ih =>
    obtain ⟨he, hes⟩ := List.forall_mem_cons.1 h
    rw [List.findSome?_cons, List.findSome?_cons, ih hes, AnnotationError.placeOverlong?,
      if_pos he]

/-! ### Printing -/

section Print

variable {record : Value} (logging : Logging) (lines : List LogLine)

/-- A record without a number that has too many digits is printed as its text. -/
theorem print_of_printable (h : ¬record.HoldsOverlong) : ∃ text, Json.text record = .ok text
    ∧ logging.print lines record = .ok (logging.succeed lines (text ++ "\n")) := by
  cases htext : Json.text record with
  | ok text => exact ⟨text, rfl, by rw [Logging.print, htext]⟩
  | error o => exact absurd ((Json.failsIf_text record).of_error htext).2 h

/-- A record with such a number crashes the run. -/
theorem print_of_holdsOverlong (h : record.HoldsOverlong) :
    logging.print lines record = .error (.fault (.overlong .writing)) := by
  cases htext : Json.text record with
  | ok text => exact absurd h ((Json.failsIf_text record).not_of_ok htext)
  | error o =>
    obtain ⟨rfl, -⟩ := (Json.failsIf_text record).of_error htext
    rw [Logging.print, htext]

end Print

/-- Records of descriptors are printed if each of the descriptors can be. -/
theorem not_holdsOverlong_recordAll {ds : List Descriptor}
    (h : ∀ d ∈ ds, ¬d.record.HoldsOverlong) : ¬(Descriptor.recordAll ds).HoldsOverlong := by
  rw [Descriptor.recordAll, Value.holdsOverlong_record_iff]
  rintro ⟨f, hf, hheld⟩
  obtain ⟨e, he, rfl⟩ := List.mem_map.1 hf
  obtain ⟨d, hd, rfl⟩ := List.mem_map.1 (Keyed.mem_ofList he)
  exact h d hd hheld

/-- What the kinds that are always there describe of classes is printed. -/
theorem not_holdsOverlong_expandFresh (ss : List ClassSource) :
    ¬(Descriptor.recordAll ((ss.map ({} : Processor).expandFresh).map
      (·.descriptor))).HoldsOverlong := by
  refine not_holdsOverlong_recordAll ?_
  rw [List.forall_mem_map, List.forall_mem_map]
  exact fun s _ => Processor.prints_expandFresh s

/-! ### The three ends of an expansion -/

section Ends

variable {logging : Logging} {lines : List LogLine} {r : Registry}

/-- Passes without a fault have nothing to report. -/
theorem failures_of_clean {qs : List Pass} (h : ∀ q ∈ qs, q.fault = none) :
    qs.flatMap (·.failures) = [] ∧ qs.filter (·.fault.isNone) = qs := by
  constructor
  · rw [List.flatMap_eq_nil_iff]
    intro q hq
    rw [Pass.failures, (clean_of_fault_eq_none (h q hq)).2]
  · exact List.filter_eq_self.2 fun q hq => Option.isNone_iff_eq_none.2 (h q hq)

theorem expandClasses_clean (h : ∀ s ∈ ss, (Processor.expandFresh ⟨r⟩ s).fault = none) :
    expandClasses logging lines r ss
      = logging.print (lines ++ (ss.map (Processor.expandFresh ⟨r⟩)).flatMap (·.log))
        (Descriptor.recordAll ((ss.map (Processor.expandFresh ⟨r⟩)).map (·.descriptor))) := by
  have hclean : ∀ q ∈ ss.map (Processor.expandFresh ⟨r⟩), q.fault = none :=
    List.forall_mem_map.2 h
  have hall : expandAll ⟨r⟩ ss = .ok (ss.map (Processor.expandFresh ⟨r⟩)) := by
    obtain hall | ⟨-, hplaces⟩ := expandAll_cases fun s hs => (clean_of_fault_eq_none (h s hs)).1
    · exact hall
    · refine absurd (fun e he => ?_) hplaces
      obtain ⟨q, hq, he⟩ := List.mem_flatMap.1 he
      rw [(clean_of_fault_eq_none (hclean q hq)).2] at he
      cases he
  obtain ⟨hnone, hwhole⟩ := failures_of_clean hclean
  simp only [expandClasses, hall, hnone, hwhole, List.isEmpty_nil, if_true]

/-- Where no error is several that are raised as one, the errors are what is reported. -/
theorem failures_eq {qs : List Pass} (h : ∀ e ∈ qs.flatMap (·.errors), e.parts = [e]) :
    qs.flatMap (·.failures) = qs.flatMap (·.errors) := by
  refine List.flatMap_congr fun q hq => ?_
  unfold Pass.failures
  split
  · rename_i e he
    rw [he, h e (List.mem_flatMap.2 ⟨q, hq, by rw [he]; exact List.mem_singleton_self e⟩)]
  · rfl

theorem expandClasses_reported (h : ∀ s ∈ ss, (Processor.expandFresh ⟨r⟩ s).abort? = none)
    {es : List AnnotationError}
    (hes : (ss.map (Processor.expandFresh ⟨r⟩)).flatMap (·.errors) = es) (hsome : es ≠ [])
    (hparts : ∀ e ∈ es, e.parts = [e])
    (hfile : ∀ e ∈ es, e.file.isSome = true) (hplaces : ∀ e ∈ es, e.Placeable) :
    expandClasses logging lines r ss
      = .ok (logging.failWith (lines ++ (ss.map (Processor.expandFresh ⟨r⟩)).flatMap (·.log))
        (AnnotationError.report es)) := by
  obtain hall | ⟨-, hnot⟩ := expandAll_cases h
  · have hfault : placeFault? es = none := by
      rw [placeFault?_eq hfile, AnnotationError.findSome?_placeOverlong?_eq_none hplaces]
      rfl
    have hempty : es.isEmpty = false := List.isEmpty_eq_false_iff.2 hsome
    have hfailures := (failures_eq (hes ▸ hparts)).trans hes
    simp only [expandClasses, hall, hfailures, hempty, hfault, Bool.false_eq_true, if_false]
  · rw [hes] at hnot
    exact absurd hplaces hnot

theorem expandClasses_crashed (h : ∀ s ∈ ss, (Processor.expandFresh ⟨r⟩ s).abort? = none)
    {es : List AnnotationError}
    (hes : (ss.map (Processor.expandFresh ⟨r⟩)).flatMap (·.errors) = es)
    (hparts : ∀ e ∈ es, e.parts = [e])
    (hfile : ∀ e ∈ es, e.file.isSome = true) (hplaces : ¬∀ e ∈ es, e.Placeable) :
    expandClasses logging lines r ss = .error (.fault (.overlong .writing)) := by
  obtain hall | ⟨hcrash, -⟩ := expandAll_cases h
  · have hfault : placeFault? es = some (.overlong .writing) := by
      rw [placeFault?_eq hfile, AnnotationError.findSome?_placeOverlong?_eq_writing hplaces]
      rfl
    have hempty : es.isEmpty = false := by
      rw [List.isEmpty_eq_false_iff]
      rintro rfl
      exact hplaces (List.forall_mem_nil _)
    have hfailures := (failures_eq (hes ▸ hparts)).trans hes
    simp only [expandClasses, hall, hfailures, hempty, hfault, Bool.false_eq_true, if_false]
  · simp only [expandClasses, hcrash]

end Ends

end DocDirective.CommandLine
