import DocDirective.Proofs.Registry.History
import DocDirective.Registry.Population

/-!
# Proofs — Registry — Population

What a registry is filled with.  Where everything that the settings name can be loaded and provides
kinds that a registry takes (`Loads`), the steps of built-ins, modules and plugins are offers of
these kinds, one after another (`Fills`), and none of them is turned down.  So the closed registry
has the last kind that was provided under each name, in the place of the first
(`populate_provides`).  A setting that enables an unknown kind stops the filling before anything is
loaded.
-/

namespace DocDirective

/-! ### What is provided -/

/-- A kind that open registries take: it is named as kinds are, and applies to something. -/
structure Kind.Acceptable (k : Kind) : Prop where
  name    : Registry.isKindName k.name = true
  applies : k.bits ≠ 0

/-- The kind that is offered, if it is one. -/
def Offer.kind? : Offer → Option Kind
  | .kind k  => some k
  | .value _ => none

/-- The offer is a kind that open registries take. -/
def Offer.Acceptable (o : Offer) : Prop := ∃ k, o = .kind k ∧ k.Acceptable

/-- What a module offers: what it lists, and behind that what its hook adds. -/
def ModuleKinds.offers (m : ModuleKinds) : List Offer := m.listed.getD [] ++ m.hooked.getD []

/-- The built-in kind of a name in lower case. -/
def Kind.builtin? (n : String) : Option Kind :=
  builtins.find? fun k => Text.lowered k.identifier = n

namespace Selection

/-- The built-in kinds that are enabled: all of them, or each that is named, once. -/
def enabledKinds : Option (List String) → List Kind
  | none       => Kind.builtins
  | some names => (requested names).eraseDups.filterMap Kind.builtin?

/-- The kinds of the module of a name. -/
def moduleKinds (modules : Keyed ModuleKinds) (name : String) : List Kind :=
  match ModuleKinds.find modules name with
  | .ok m    => m.offers.filterMap Offer.kind?
  | .error _ => []

/-- The kinds of a plugin. -/
def pluginKinds (e : EntryPoint) : List Kind :=
  match e.result with
  | .ok os   => os.filterMap Offer.kind?
  | .error _ => []

/-- The kinds that built-ins, modules and plugins provide, one after another. -/
def provided (s : Selection) (plugins : Plugins) : List Kind :=
  enabledKinds s.enabled ++ s.modules.flatMap (moduleKinds plugins.modules)
    ++ (if s.entryPoints then plugins.entryPoints.flatMap pluginKinds else [])

/-- Everything that is selected can be loaded, and offers only kinds that a registry takes. -/
structure Loads (s : Selection) (plugins : Plugins) : Prop where
  enabled     : ∀ names, s.enabled = some names →
    ∀ n ∈ requested names, Kind.builtin? n ≠ none
  modules     : ∀ n ∈ s.modules, ∃ m, ModuleKinds.find plugins.modules n = .ok m
    ∧ (m.listed ≠ none ∨ m.hooked ≠ none) ∧ ∀ o ∈ m.offers, o.Acceptable
  entryPoints : s.entryPoints = true → ∀ e ∈ plugins.entryPoints, ∃ os, e.result = .ok os
    ∧ ∀ o ∈ os, o.Acceptable

end Selection

/-! ### Built-in kinds -/

namespace Kind

theorem acceptable_of_builtins {k : Kind} (hk : k ∈ builtins) : k.Acceptable := by
  simp only [builtins, List.mem_cons, List.not_mem_nil, or_false] at hk
  rcases hk with rfl | rfl | rfl | rfl | rfl | rfl | rfl <;>
    exact ⟨by decide +kernel, by decide⟩

theorem acceptable_of_builtin? {n : String} {k : Kind} (h : builtin? n = some k) :
    k.Acceptable :=
  acceptable_of_builtins (List.mem_of_find?_eq_some h)

theorem get?_builtinTable (n : String) : builtinTable.get? n = builtin? n := by
  have hentries : builtinTable.entries
      = builtins.map fun k => (Text.lowered k.identifier, k) :=
    Keyed.entries_insertAll (t := .empty) (by decide +kernel)
  rw [Keyed.get?, hentries, Keyed.lookup_map]
  rfl

end Kind

/-! ### Steps -/

/-- Steps that offer kinds which open registries take, and fail nowhere. -/
inductive Fills : List PopulationStep → List Kind → Prop
  | nil : Fills [] []
  | say (m : String) {steps : List PopulationStep} {ks : List Kind} (h : Fills steps ks) :
      Fills (.say m :: steps) ks
  | offer {k : Kind} (hk : k.Acceptable) {steps : List PopulationStep} {ks : List Kind}
      (h : Fills steps ks) : Fills (.offer (.kind k) :: steps) (k :: ks)

namespace Fills

variable {steps steps' : List PopulationStep} {ks ks' : List Kind}

theorem append (h : Fills steps ks) (h' : Fills steps' ks') :
    Fills (steps ++ steps') (ks ++ ks') := by
  induction h with
  | nil => exact h'
  | say m _ ih => exact ih.say m
  | offer hk _ ih => exact ih.offer hk

theorem flatMap {α : Type} {xs : List α} {f : α → List PopulationStep} {g : α → List Kind}
    (h : ∀ x ∈ xs, Fills (f x) (g x)) : Fills (xs.flatMap f) (xs.flatMap g) := by
  induction xs with
  | nil => exact .nil
  | cons x xs ih =>
    rw [List.forall_mem_cons] at h
    exact h.1.append (ih h.2)

/-- Kinds that are offered as they are. -/
theorem ofKinds (h : ∀ k ∈ ks, k.Acceptable) : Fills (ks.map fun k => .offer (.kind k)) ks := by
  induction ks with
  | nil => exact .nil
  | cons k ks ih =>
    rw [List.forall_mem_cons] at h
    exact (ih h.2).offer h.1

/-- Steps that come to the offer of each kind, vetted or not. -/
theorem ofOffers {os : List Offer} {step : Offer → PopulationStep}
    (hstep : ∀ k, step (.kind k) = .offer (.kind k)) (h : ∀ o ∈ os, o.Acceptable) :
    Fills (os.map step) (os.filterMap Offer.kind?) := by
  induction os with
  | nil => exact .nil
  | cons o os ih =>
    rw [List.forall_mem_cons] at h
    obtain ⟨⟨k, rfl, hk⟩, hos⟩ := h
    rw [List.map_cons, hstep]
    exact (ih hos).offer hk

theorem findSome?_failure? (h : Fills steps ks) : steps.findSome? (·.failure?) = none := by
  induction h with
  | nil => rfl
  | say m _ ih => exact ih
  | offer hk _ ih => exact ih

/-- An open registry takes every kind that is offered. -/
theorem run (h : Fills steps ks) {f : Filling} (hopen : f.registry.frozen = false) :
    (Filling.run steps f).failure = f.failure
      ∧ (Filling.run steps f).registry.frozen = false
      ∧ (Filling.run steps f).registry.kinds
        = f.registry.kinds.insertAll (ks.map fun k => (k.name, k)) := by
  induction h generalizing f with
  | nil => exact ⟨rfl, hopen, rfl⟩
  | say m _ ih => exact ih hopen
  | @offer k hk steps ks _ ih =>
    have htaken : f.registry.register (.kind k)
        = .ok { f.registry with kinds := f.registry.kinds.insert k.name k } :=
      Registry.register_eq_ok_iff.2 ⟨k, rfl, hopen, Registry.fit_iff.2 ⟨hk.applies, hk.name⟩, rfl⟩
    simp only [Filling.run, htaken]
    exact ih hopen

end Fills

/-! ### Sources of kinds -/

theorem ModuleKinds.fills_stepsOf (name : String) {m : ModuleKinds}
    (hsome : m.listed ≠ none ∨ m.hooked ≠ none) (hoffers : ∀ o ∈ m.offers, o.Acceptable) :
    Fills (stepsOf name m) (m.offers.filterMap Offer.kind?) := by
  obtain ⟨listed, hooked⟩ := m
  rw [offers, List.filterMap_append]
  rw [offers, List.forall_mem_append] at hoffers
  have hlisted : Fills ((listed.getD []).map (.vetted name))
      ((listed.getD []).filterMap Offer.kind?) :=
    Fills.ofOffers (fun _ => rfl) hoffers.1
  have hhooked : Fills ((hooked.getD []).map .offer) ((hooked.getD []).filterMap Offer.kind?) :=
    Fills.ofOffers (fun _ => rfl) hoffers.2
  cases hooked with
  | none =>
    cases listed with
    | none => simp at hsome
    | some os => simpa [stepsOf] using hlisted
  | some os => cases listed <;> exact hlisted.append (hhooked.say _)

theorem EntryPoint.fills_steps {es : List EntryPoint}
    (h : ∀ e ∈ es, ∃ os, e.result = .ok os ∧ ∀ o ∈ os, o.Acceptable) :
    Fills (steps es) (es.flatMap Selection.pluginKinds) := by
  have hall : Fills (es.flatMap stepsOf) (es.flatMap Selection.pluginKinds) := by
    refine Fills.flatMap fun e he => ?_
    obtain ⟨os, hos, haccept⟩ := h e he
    rw [stepsOf, Selection.pluginKinds, hos]
    exact Fills.ofOffers (fun _ => rfl) haccept
  rw [steps, hall.findSome?_failure?]
  exact hall

namespace Selection

theorem fills_builtinSteps {enabled : Option (List String)}
    (h : ∀ names, enabled = some names → ∀ n ∈ requested names, Kind.builtin? n ≠ none) :
    Fills (builtinSteps enabled) (enabledKinds enabled) := by
  cases enabled with
  | none => exact Fills.ofKinds fun k => Kind.acceptable_of_builtins
  | some names =>
    have hknown : ((requested names).filter fun n => !Kind.builtinTable.contains n) = [] := by
      refine List.filter_eq_nil_iff.2 fun n hn => ?_
      rw [Keyed.contains, Kind.get?_builtinTable, Option.isSome_iff_ne_none.2 (h names rfl n hn)]
      decide
    have hget : Kind.builtinTable.get? = Kind.builtin? := funext Kind.get?_builtinTable
    rw [builtinSteps]
    simp only [hknown, hget, List.isEmpty_nil, if_true]
    refine Fills.ofKinds fun k hk => ?_
    obtain ⟨n, -, hn⟩ := List.mem_filterMap.1 hk
    exact Kind.acceptable_of_builtin? hn

/-- The steps of a selection that loads offer the kinds that it provides. -/
theorem Loads.fills {s : Selection} {plugins : Plugins} (h : s.Loads plugins) :
    Fills (s.steps plugins) (s.provided plugins) := by
  have hmodules : Fills (s.modules.flatMap (ModuleKinds.steps plugins.modules))
      (s.modules.flatMap (moduleKinds plugins.modules)) := by
    refine Fills.flatMap fun n hn => ?_
    obtain ⟨m, hm, hsome, hoffers⟩ := h.modules n hn
    rw [ModuleKinds.steps, moduleKinds, hm]
    exact ModuleKinds.fills_stepsOf n hsome hoffers
  refine ((fills_builtinSteps h.enabled).append hmodules).append ?_
  split
  · rename_i hentry
    exact EntryPoint.fills_steps (h.entryPoints hentry)
  · exact .nil

/-! ### Unknown names -/

theorem mem_sorted {names : List String} {n : String} : n ∈ sorted names ↔ n ∈ names := by
  rw [sorted, List.mem_mergeSort, List.mem_eraseDups]

/-- Names that are sorted ascend, so that none is there twice. -/
theorem pairwise_sorted (names : List String) : (sorted names).Pairwise (· < ·) := by
  have hle : (sorted names).Pairwise fun a b => (!decide (b < a)) = true := by
    refine List.pairwise_mergeSort (fun a b c hab hbc => ?_) (fun a b => ?_) _
    · simp only [Bool.not_eq_true', decide_eq_false_iff_not, String.not_lt] at hab hbc ⊢
      exact String.le_trans hab hbc
    · simp only [Bool.or_eq_true, Bool.not_eq_true', decide_eq_false_iff_not, String.not_lt]
      exact String.le_total a b
  have hnodup : (sorted names).Nodup :=
    (List.mergeSort_perm _ _).nodup_iff.2 (Keyed.nodup_eraseDups names)
  refine (hle.and hnodup).imp fun {a b} ⟨hab, hne⟩ => ?_
  simp only [Bool.not_eq_true', decide_eq_false_iff_not, String.not_lt] at hab
  by_contra hlt
  exact hne (String.le_antisymm hab (String.not_lt.1 hlt))

/-- A name that no built-in kind has ends the filling where it starts. -/
theorem populate_of_unknown {s : Selection} (plugins : Plugins) {names : List String}
    (henabled : s.enabled = some names) {n : String} (hn : n ∈ requested names)
    (hunknown : Kind.builtin? n = none) :
    (s.populate plugins).failure = some (.unknownKinds
      (sorted ((requested names).filter fun n => !Kind.builtinTable.contains n))) := by
  have hsome : n ∈ (requested names).filter fun n => !Kind.builtinTable.contains n := by
    refine List.mem_filter.2 ⟨hn, ?_⟩
    rw [Keyed.contains, Kind.get?_builtinTable, hunknown]
    rfl
  have hfail : builtinSteps s.enabled = [.fail (.unknownKinds
      (sorted ((requested names).filter fun n => !Kind.builtinTable.contains n)))] := by
    rw [henabled, builtinSteps]
    exact if_neg fun hempty => List.ne_nil_of_mem hsome (List.isEmpty_iff.1 hempty)
  rw [populate, steps, hfail]
  rfl

theorem populate_of_fills {s : Selection} {plugins : Plugins} {ks : List Kind}
    (h : Fills (s.steps plugins) ks) :
    (s.populate plugins).failure = none
      ∧ (s.populate plugins).registry = ⟨.ofList (ks.map fun k => (k.name, k)), true⟩ := by
  obtain ⟨hfailure, hopen, hkinds⟩ := h.run (f := ⟨.empty, [], none⟩) rfl
  rw [populate, Filling.close, hfailure]
  exact ⟨rfl, by rw [Registry.freeze, hkinds]; rfl⟩

/-- **What a registry is filled with.**  Where everything that is selected can be loaded, the
registry comes out closed; the names in it are those of the kinds that built-ins, modules and
plugins provide, in the order in which they first came, and under each name stands the last kind
that was provided under it.  Where a name is enabled that no built-in kind has, the filling fails
and tells all such names in ascending order, whatever modules and plugins there are. -/
theorem populate_provides (s : Selection) (plugins : Plugins) :
    (s.Loads plugins →
      (s.populate plugins).failure = none
        ∧ (s.populate plugins).registry.frozen = true
        ∧ (s.populate plugins).registry.kinds.keys
          = ((s.provided plugins).map (·.name)).eraseDups
        ∧ ∀ name, (s.populate plugins).registry.kinds.get? name
          = (s.provided plugins).reverse.find? (·.name = name))
      ∧ ∀ names, s.enabled = some names → (∃ n ∈ requested names, Kind.builtin? n = none) →
        ∃ unknown, (s.populate plugins).failure = some (.unknownKinds unknown)
          ∧ unknown.Pairwise (· < ·)
          ∧ ∀ n, n ∈ unknown ↔ n ∈ requested names ∧ Kind.builtin? n = none := by
  constructor
  · intro hloads
    obtain ⟨hfailure, hregistry⟩ := populate_of_fills hloads.fills
    rw [hregistry]
    refine ⟨hfailure, rfl, ?_, fun name => ?_⟩
    · rw [Keyed.keys_ofList, List.map_map]
      rfl
    · rw [Keyed.get?_ofList, ← List.map_reverse, Keyed.lookup_map]
  · rintro names henabled ⟨n, hn, hunknown⟩
    refine ⟨_, populate_of_unknown plugins henabled hn hunknown, pairwise_sorted _, fun m => ?_⟩
    rw [mem_sorted, List.mem_filter, Keyed.contains, Kind.get?_builtinTable]
    simp

/-- A module that lists a kind, and by its hook replaces a built-in one. -/
def shopModule : ModuleKinds where
  listed := some [.kind (Kind.table.renamed "CachedAnnotation" 1 none)]
  hooked := some [.kind (Kind.column.renamed "TableAnnotation" 2 none)]

/-- The module, and a plugin that replaces the kind that the module lists. -/
def shopPlugins : Plugins where
  modules     := .ofList [("shop", shopModule)]
  entryPoints := [⟨"cache", .ok [.kind (Kind.route.renamed "CachedAnnotation" 3 none)]⟩]

/-- Two built-in kinds, one of them twice, and the module twice. -/
def shopSelection : Selection where
  enabled := some [" Table ", "column", "TABLE"]
  modules := ["shop", "shop"]

theorem loads_shop : shopSelection.Loads shopPlugins := by
  refine ⟨?_, fun n hn => ?_, fun _ e he => ?_⟩
  · rintro names ⟨⟩ n hn
    have hrequested : requested [" Table ", "column", "TABLE"] = ["table", "column", "table"] := by
      decide +kernel
    rw [hrequested] at hn
    have hknown : ∀ n ∈ ["table", "column", "table"], (Kind.builtin? n).isSome = true := by
      decide +kernel
    exact Option.isSome_iff_ne_none.1 (hknown n hn)
  · obtain rfl : n = "shop" := by simpa [shopSelection] using hn
    refine ⟨shopModule, rfl, .inl (Option.some_ne_none _), fun o ho => ?_⟩
    simp only [ModuleKinds.offers, shopModule, Option.getD_some, List.cons_append, List.nil_append,
      List.mem_cons, List.not_mem_nil, or_false] at ho
    rcases ho with rfl | rfl <;> exact ⟨_, rfl, by decide +kernel, by decide⟩
  · obtain rfl := List.mem_singleton.1 he
    refine ⟨_, rfl, fun o ho => ?_⟩
    obtain rfl := List.mem_singleton.1 ho
    exact ⟨_, rfl, by decide +kernel, by decide⟩

theorem populate_provides_shop :
    shopSelection.Loads shopPlugins
      ∧ (shopSelection.populate shopPlugins).registry.kinds.keys
        = ["TableAnnotation", "ColumnAnnotation", "CachedAnnotation"]
      ∧ ((shopSelection.populate shopPlugins).registry.kinds.get? "TableAnnotation").map (·.serial)
        = some 2
      ∧ ((shopSelection.populate shopPlugins).registry.kinds.get? "CachedAnnotation").map (·.serial)
        = some 3
      ∧ ∃ unknown,
        (populate ⟨some ["nosuch", " Bad", "bad", "table"], [], true⟩ shopPlugins).failure
          = some (.unknownKinds unknown) ∧ unknown.Pairwise (· < ·) := by
  obtain ⟨-, -, hkeys, hlast⟩ := (populate_provides shopSelection shopPlugins).1 loads_shop
  have hunknown : ∃ n ∈ requested ["nosuch", " Bad", "bad", "table"], Kind.builtin? n = none :=
    ⟨"nosuch", by decide +kernel, Option.isNone_iff_eq_none.1 (by decide +kernel)⟩
  obtain ⟨unknown, hfailure, hsorted, -⟩ :=
    (populate_provides ⟨some ["nosuch", " Bad", "bad", "table"], [], true⟩ shopPlugins).2 _ rfl
      hunknown
  have hprovided : ((shopSelection.provided shopPlugins).map (·.name)).eraseDups
        = ["TableAnnotation", "ColumnAnnotation", "CachedAnnotation"]
      ∧ ((shopSelection.provided shopPlugins).reverse.find? (·.name = "TableAnnotation")).map
        (·.serial) = some 2
      ∧ ((shopSelection.provided shopPlugins).reverse.find? (·.name = "CachedAnnotation")).map
        (·.serial) = some 3 := by
    decide +kernel
  rw [← hkeys, ← hlast, ← hlast] at hprovided
  exact ⟨loads_shop, hprovided.1, hprovided.2.1, hprovided.2.2, unknown, hfailure, hsorted⟩

end Selection

end DocDirective
