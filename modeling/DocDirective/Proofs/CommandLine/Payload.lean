import DocDirective.Proofs.CommandLine.Expansion

/-!
# Proofs — Command line — Payload

What is printed of the descriptors of a manifest.  A record tells a descriptor completely
(`Descriptor.record_injective`), but records are printed by the names of their classes, and a
manifest may list several classes of one name.  Of these only the last is printed, so nothing is
lost exactly if classes of one name have equal descriptors (`runExpand_payload`).  The text of the
records is there unless one of them holds a number with too many digits.
-/

namespace DocDirective

/-! ### Records -/

theorem Value.record_injective : Function.Injective Value.record := by
  intro xs ys h
  refine List.map_injective_iff.2 ?_ (Value.map.inj h)
  rintro ⟨k, v⟩ ⟨k', v'⟩ he
  obtain ⟨hk, hv⟩ := Prod.mk.inj he
  exact Prod.ext (Value.text.inj hk) hv

theorem Value.ofText?_injective : Function.Injective Value.ofText? := by
  rintro (_ | s) (_ | s') h
  · rfl
  · cases h
  · cases h
  · rw [Value.text.inj h]

theorem Value.ofKeyed_injective : Function.Injective Value.ofKeyed := fun _ _ h =>
  Keyed.eq_of_entries (Value.record_injective h)

theorem RouteEntry.record_injective : Function.Injective RouteEntry.record := by
  rintro ⟨⟩ ⟨⟩ h
  simpa [record, Value.record_injective.eq_iff, Value.ofText?_injective.eq_iff] using h

theorem Column.record_injective : Function.Injective Column.record := by
  rintro ⟨⟩ ⟨⟩ h
  simpa [record, Value.record_injective.eq_iff] using h

theorem Relation.record_injective : Function.Injective Relation.record := by
  rintro ⟨⟩ ⟨⟩ h
  simpa [record, Value.record_injective.eq_iff, Value.ofText?_injective.eq_iff] using h

namespace Descriptor

/-- A record tells everything about a descriptor. -/
theorem record_injective : Function.Injective record := by
  rintro ⟨⟩ ⟨⟩ h
  simpa [record, Value.record_injective.eq_iff, Value.ofText?_injective.eq_iff,
    Value.ofKeyed_injective.eq_iff, RouteEntry.record_injective.list_map.eq_iff,
    Column.record_injective.list_map.eq_iff, Relation.record_injective.list_map.eq_iff] using h

/-! ### Records by the names of classes -/

variable {ds : List Descriptor}

/-- The records that are printed, by the names of their classes. -/
def records (ds : List Descriptor) : List (String × Value) :=
  (byClass ds).entries.map fun e => (e.1, e.2.record)

/-- Every name stands where it comes up first. -/
theorem map_fst_records (ds : List Descriptor) :
    (records ds).map (·.1) = (ds.map (·.className)).eraseDups := by
  have hkeys := Keyed.keys_ofList (ds.map fun d => (d.className, d))
  rw [List.map_map] at hkeys
  rw [records, List.map_map]
  exact hkeys

/-- Under a name stands the last descriptor of that name. -/
theorem get?_byClass (ds : List Descriptor) (name : String) :
    (byClass ds).get? name = (ds.filter fun d => d.className = name).getLast? := by
  rw [byClass, Keyed.get?_ofList]
  induction ds using List.reverseRecOn with
  | nil => rfl
  | append_singleton ds d ih =>
    rw [List.map_append, List.map_singleton, List.reverse_concat, List.lookup_cons, ih,
      List.filter_append]
    by_cases h : d.className = name
    · simp [h]
    · simp [h, beq_eq_false_iff_ne.2 (Ne.symm h)]

/-- A descriptor is printed exactly if the last one of its name is the same. -/
theorem mem_records_iff {d : Descriptor} :
    (d.className, d.record) ∈ records ds
      ↔ (ds.filter fun y => y.className = d.className).getLast? = some d := by
  rw [← get?_byClass, Keyed.get?_eq_some_iff, records, List.mem_map]
  constructor
  · rintro ⟨⟨name, d'⟩, hmem, he⟩
    obtain ⟨rfl, hd⟩ := Prod.mk.inj he
    obtain rfl : d' = d := record_injective hd
    exact hmem
  · exact fun hmem => ⟨_, hmem, rfl⟩

/-- All descriptors are printed exactly if those of one name are equal. -/
theorem forall_mem_records_iff :
    (∀ d ∈ ds, (d.className, d.record) ∈ records ds)
      ↔ ∀ d ∈ ds, ∀ d' ∈ ds, d.className = d'.className → d = d' := by
  constructor
  · intro h d hd d' hd' hname
    have hlast := mem_records_iff.1 (h d hd)
    rw [hname, mem_records_iff.1 (h d' hd')] at hlast
    exact (Option.some.inj hlast).symm
  · intro h d hd
    rw [mem_records_iff]
    have hmem : d ∈ ds.filter fun y => y.className = d.className :=
      List.mem_filter.2 ⟨hd, decide_eq_true rfl⟩
    obtain ⟨last, hlast⟩ :=
      Option.isSome_iff_exists.1 (List.getLast?_isSome.2 (List.ne_nil_of_mem hmem))
    obtain ⟨hin, hname⟩ := List.mem_filter.1 (List.mem_of_getLast? hlast)
    rw [hlast, h last hin d hd (of_decide_eq_true hname)]

end Descriptor

namespace CommandLine

variable {read : DocumentReader} {d : Disk} {filling : Filling} {manifest : String}
  {sources : List ClassSource}

/-- **What is printed of the classes of a manifest.**  Where every class expands without an error,
whatever reads the document and whatever the registry is, the run prints one record for each name,
in the order in which the names come up first; only records that hold a number with too many digits
crash it, and the kinds that are always there describe nothing of the sort.  The descriptor of a
class is among the records exactly if it is that of the last class of its name; so every descriptor
is printed exactly if classes of one name have equal descriptors. -/
theorem runExpand_payload (logging : Logging)
    (hload : Manifest.load read d (.ofText manifest) = .ok sources)
    (hclean : ∀ s ∈ sources, (Processor.expandFresh ⟨filling.registry⟩ s).fault = none) :
    let passes := sources.map (Processor.expandFresh ⟨filling.registry⟩)
    let ds := passes.map (·.descriptor)
    let lines := filling.log
      ++ [⟨.debug, "cli", s!"Loaded {sources.length} classes from {manifest}"⟩]
      ++ passes.flatMap (·.log)
    let payload := Value.record (Descriptor.records ds)
    let run := runExpand read d logging filling manifest
    (∃ v, d.readDocument read (.ofText manifest) = .ok v
        ∧ List.Forall₂ (Manifest.Lists (Path.ofText manifest).text) (Manifest.entries v) sources)
      ∧ (¬payload.HoldsOverlong → ∃ text, Json.text payload = .ok text
        ∧ run = .ok (logging.succeed lines (text ++ "\n")))
      ∧ (payload.HoldsOverlong → run = .error (.fault (.overlong .writing)))
      ∧ (Descriptor.records ds).map (·.1) = (ds.map (·.className)).eraseDups
      ∧ (∀ x ∈ ds, (x.className, x.record) ∈ Descriptor.records ds
        ↔ (ds.filter fun y => y.className = x.className).getLast? = some x)
      ∧ ((∀ x ∈ ds, (x.className, x.record) ∈ Descriptor.records ds)
        ↔ ∀ x ∈ ds, ∀ y ∈ ds, x.className = y.className → x = y)
      ∧ (filling.registry = .default → ¬payload.HoldsOverlong
        ∧ ds.map (·.className) = sources.map (·.target.className)) := by
  intro passes ds lines payload run
  have hrun : run = logging.print lines payload := by
    simp only [run, runExpand, hload]
    exact expandClasses_clean hclean
  refine ⟨Manifest.load_lists hload, fun hfree => ?_, fun hheld => ?_,
    Descriptor.map_fst_records ds, fun x _ => Descriptor.mem_records_iff,
    Descriptor.forall_mem_records_iff, fun hregistry => ⟨?_, ?_⟩⟩
  · obtain ⟨text, htext, hprint⟩ := print_of_printable logging lines hfree
    exact ⟨text, htext, hrun.trans hprint⟩
  · exact hrun.trans (print_of_holdsOverlong logging lines hheld)
  · have hprints := not_holdsOverlong_expandFresh sources
    rw [← hregistry] at hprints
    exact hprints
  · simp only [ds, passes, List.map_map, hregistry]
    exact List.map_congr_left fun s _ => Processor.className_expandFresh s

/-- A disk with a manifest of two classes of one name. -/
def twinDisk : Disk where
  cwd   := ⟨1, ["work"]⟩
  nodes := [(["work", "m"], .file
    "- name: A\n  comment: \"!Table 'a'\"\n- name: A\n".toUTF8.toList)]

/-- The value of that manifest. -/
def twinDocument : Value := .list [
  .record [("name", .text "A"), ("comment", .text "!Table 'a'")],
  .record [("name", .text "A")]]

/-- The class of that manifest with a comment. -/
def twin (comment : String) : ClassSource where
  target  := .forClass "A" (some "m") none []
  comment := comment

theorem load_twins : Manifest.load (fun _ => .ok twinDocument) twinDisk (.ofText "m")
    = .ok [twin "!Table 'a'", twin ""] := by
  rw [ofText_m]
  exact ok_of_toOption (by decide +kernel)

theorem expandFresh_twins :
    let q  := ({} : Processor).expandFresh (twin "!Table 'a'")
    let q' := ({} : Processor).expandFresh (twin "")
    q.fault = none ∧ q'.fault = none ∧ q.descriptor.table = some "a"
      ∧ q'.descriptor.table = none := by
  have hrun : (let q  := ({} : Processor).expandFresh (twin "!Table 'a'")
      let q' := ({} : Processor).expandFresh (twin "")
      q.fault.isNone && q'.fault.isNone && q.descriptor.table == some "a"
        && q'.descriptor.table == none) = true := by
    decide +kernel
  simpa only [Bool.and_eq_true, Option.isNone_iff_eq_none, beq_iff_eq, and_assoc] using hrun

theorem runExpand_payload_twins :
    ∃ ds lines text, ds.length = 2
      ∧ Json.text (.record (Descriptor.records ds)) = .ok text
      ∧ runExpand (fun _ => .ok twinDocument) twinDisk ⟨false, none⟩
          (({} : Selection).populate {}) "m"
        = .ok (Logging.succeed ⟨false, none⟩ lines (text ++ "\n"))
      ∧ ¬∀ x ∈ ds, (x.className, x.record) ∈ Descriptor.records ds := by
  obtain ⟨hfault, hfault', htable, htable'⟩ := expandFresh_twins
  have hregistry : (({} : Selection).populate {}).registry = .default := populate_default rfl
  have hclean : ∀ s ∈ [twin "!Table 'a'", twin ""],
      (Processor.expandFresh ⟨(({} : Selection).populate {}).registry⟩ s).fault = none := by
    rw [hregistry]
    exact List.forall_mem_cons.2 ⟨hfault, List.forall_mem_singleton.2 hfault'⟩
  obtain ⟨-, hprints, -, -, -, hall, hdefault⟩ :=
    runExpand_payload ⟨false, none⟩ load_twins hclean
  obtain ⟨text, htext, hrun⟩ := hprints (hdefault hregistry).1
  refine ⟨_, _, text, rfl, htext, hrun, fun hlost => ?_⟩
  -- the two descriptors have one name and different tables
  have hsame := hall.1 hlost _ List.mem_cons_self _ (List.mem_cons_of_mem _ List.mem_cons_self)
  rw [hregistry, Processor.className_expandFresh, Processor.className_expandFresh] at hsame
  have htables := congrArg Descriptor.table (hsame rfl)
  rw [htable, htable'] at htables
  cases htables

end CommandLine

end DocDirective
