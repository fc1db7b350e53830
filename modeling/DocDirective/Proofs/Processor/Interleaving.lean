import DocDirective.Proofs.Kind.Proper
import DocDirective.Proofs.Processor.Blindness
import DocDirective.Proofs.Processor.Description
import DocDirective.Proofs.Processor.Isolation

/-!
# Proofs — Processor — Interleaving

Methods and properties of a class do not touch each other where the kinds that are always there are
registered.  A method only ever adds routes and a property only ever adds columns, and these two
commute (`next_comm`).  So a pass comes to the same in any order of the members in which methods and
properties each keep theirs (`expandClass_reordered`).
-/

namespace DocDirective

/-! ### What elements say -/

namespace Contribution

/-- The elements that such a thing is said about. -/
def elementKind : Contribution → ElementKind
  | .routesPrefix _ => .ofClass
  | .table _        => .ofClass
  | .source _       => .ofClass
  | .route _        => .ofMethod
  | .column _       => .ofProperty
  | .relation _     => .ofClass

/-- What is said about a method and what is said about a property commute. -/
theorem accept_comm {c c' : Contribution} (hc : c.elementKind = .ofMethod)
    (hc' : c'.elementKind = .ofProperty) (d : Descriptor) :
    c'.accept (c.accept d) = c.accept (c'.accept d) := by
  cases c with
  | route r =>
    cases c' with
    | column col => rfl
    | _ => cases hc'
  | _ => cases hc

end Contribution

namespace Kind

open Invocation

variable {k : Kind} {ps : Parameters} {t : Target} {d : Descriptor}

/-- The kinds that say a thing apply to the elements that it is said about. -/
theorem elementKind_of_applies {name : String} {mask : Mask} {c : Contribution}
    {kind : ElementKind} (hk : k ∈ builtins) (hname : k.name = name ++ suffix)
    (hmask : k.mask = some mask) (hsayer : name ∈ c.sayers) (hin : mask.contains kind = true) :
    c.elementKind = kind := by
  have happlies (k' : Kind) {sort : ElementKind} (hk' : k' ∈ builtins)
      (hsort : k'.mask = some ⟨sort.bit⟩) (h : k.name = k'.name) : sort = kind := by
    obtain rfl := eq_of_name hk hk' h
    obtain rfl : ⟨sort.bit⟩ = mask := Option.some.inj (hsort.symm.trans hmask)
    exact (Mask.contains_bit_iff.1 hin).symm
  cases c with
  | routesPrefix path =>
    obtain rfl := List.mem_singleton.1 hsayer
    exact happlies routesPrefix (by simp [builtins]) rfl hname
  | table n =>
    obtain rfl := List.mem_singleton.1 hsayer
    exact happlies Kind.table (by simp [builtins]) rfl hname
  | source n =>
    obtain rfl := List.mem_singleton.1 hsayer
    exact happlies Kind.source (by simp [builtins]) rfl hname
  | route r =>
    obtain rfl := List.mem_singleton.1 hsayer
    exact happlies Kind.route (by simp [builtins]) rfl hname
  | column c =>
    obtain rfl := List.mem_singleton.1 hsayer
    exact happlies Kind.column (by simp [builtins]) rfl hname
  | relation r =>
    obtain rfl | hsayer := List.mem_cons.1 hsayer
    · exact happlies hasMany (by simp [builtins]) rfl hname
    · obtain rfl := List.mem_singleton.1 hsayer
      exact happlies belongsTo (by simp [builtins]) rfl hname

end Kind

namespace Processor

variable {p : Processor} {d : Descriptor}

/-- A directive that is carried out says something about its element. -/
theorem elementKind_of_attempt (hp : p.registry = .default) {t : Target} {dir : Directive}
    (h : (p.attempt t dir d).1.succeeded = true) {c : Contribution}
    (hsayer : dir.name ∈ c.sayers) : c.elementKind = t.kind := by
  rw [attempt] at h
  cases hi : p.instantiate dir with
  | error f =>
    rw [hi] at h
    cases h
  | ok i =>
    obtain ⟨k, ps, rfl, heval, hlookup⟩ := instantiate_eq_ok hp hi
    obtain ⟨hk, hname⟩ := Registry.lookup_default hlookup
    obtain ⟨mask, hmask⟩ := Kind.exists_mask hk
    rw [hi] at h
    have hfault : ((Invocation.new k ps).expand t d).fault = none := by
      simpa [Attempt.succeeded] using h
    exact Kind.elementKind_of_applies hk hname hmask hsayer
      ((Kind.fault_eq_none_iff hk hmask).1 hfault).1

/-- A directive that is carried out adds what it says about its element. -/
theorem adds_of_attempt (hp : p.registry = .default) {t : Target} {dir : Directive}
    (h : (p.attempt t dir d).1.succeeded = true) :
    ∃ c, (p.attempt t dir d).1.said? = some c ∧ c.elementKind = t.kind
      ∧ p.next d (t, dir) = c.accept d := by
  have habout : (p.attempt t dir d).1.about = (t, dir) := about_attempt t dir d
  have hkind {c : Contribution} (hsayer : dir.name ∈ c.sayers) : c.elementKind = t.kind :=
    elementKind_of_attempt hp h hsayer
  rw [next]
  generalize hr : p.attempt t dir d = r at h habout ⊢
  obtain ⟨c, hsaid, hsayer, hnext⟩ := accept_attempt hp hr h
  have hdir : r.1.directive = dir := congrArg Prod.snd habout
  rw [hdir] at hsayer
  exact ⟨c, hsaid, hkind hsayer, hnext⟩

/-- A directive adds the same to any descriptor, which is something about its element or nothing. -/
theorem exists_next (hp : p.registry = .default) (x : Target × Directive) :
    ∃ c? : Option Contribution, (∀ c ∈ c?, c.elementKind = x.1.kind)
      ∧ ∀ d, p.next d x = c?.elim d (·.accept d) := by
  obtain ⟨t, dir⟩ := x
  have hblind := blind_default hp t dir { className := t.className }
  generalize (p.attempt t dir { className := t.className }).1 = a at hblind
  cases ha : a.succeeded with
  | true =>
    have hadds (d : Descriptor) : ∃ c, a.said? = some c ∧ c.elementKind = t.kind
        ∧ p.next d (t, dir) = c.accept d := by
      rw [hblind d] at ha ⊢
      exact adds_of_attempt hp ha
    obtain ⟨c, hsaid, hkind, -⟩ := hadds { className := t.className }
    refine ⟨some c, fun c' hc' => Option.some.inj hc' ▸ hkind, fun d => ?_⟩
    obtain ⟨c', hsaid', -, hnext⟩ := hadds d
    obtain rfl : c = c' := Option.some.inj (hsaid.symm.trans hsaid')
    exact hnext
  | false =>
    refine ⟨none, nofun, fun d => spares_default hp t dir d fun hnone => ?_⟩
    rw [hblind d, Attempt.succeeded, hnone] at ha
    cases ha

/-- A directive on a method and one on a property commute. -/
theorem next_comm (hp : p.registry = .default) {x y : Target × Directive}
    (hx : x.1.kind = .ofMethod) (hy : y.1.kind = .ofProperty) (d : Descriptor) :
    p.next (p.next d x) y = p.next (p.next d y) x := by
  obtain ⟨cx, hkx, hnx⟩ := exists_next hp x
  obtain ⟨cy, hky, hny⟩ := exists_next hp y
  simp only [hnx, hny]
  cases cx with
  | none => rfl
  | some c =>
    cases cy with
    | none => rfl
    | some c' =>
      exact Contribution.accept_comm ((hkx c rfl).trans hx) ((hky c' rfl).trans hy) d

end Processor

/-! ### Orders of the members -/

section Folding

variable {α β : Type} {f : β → α → β}

/-- A step that commutes with all steps behind it may come last. -/
theorem foldl_last {xs : List α} {y : α} (h : ∀ x ∈ xs, ∀ b, f (f b x) y = f (f b y) x) (b : β) :
    xs.foldl f (f b y) = f (xs.foldl f b) y := by
  induction xs generalizing b with
  | nil => rfl
  | cons x xs ih =>
    rw [List.forall_mem_cons] at h
    rw [List.foldl_cons, List.foldl_cons, ← h.1 b, ih h.2]

/-- Steps of two sorts that commute may be taken sort by sort. -/
theorem foldl_sorted (first : α → Bool) {xs : List α}
    (h : ∀ x ∈ xs, ∀ y ∈ xs, first x = true → first y = false → ∀ b, f (f b x) y = f (f b y) x)
    (b : β) :
    xs.foldl f b = (xs.filter fun x => !first x).foldl f ((xs.filter first).foldl f b) := by
  induction xs generalizing b with
  | nil => rfl
  | cons x xs ih =>
    have htail := ih fun y hy z hz => h y (List.mem_cons_of_mem _ hy) z (List.mem_cons_of_mem _ hz)
    rw [List.foldl_cons, htail]
    cases hx : first x with
    | true => simp only [List.filter_cons, hx, if_true, Bool.not_true, Bool.false_eq_true,
        if_false, List.foldl_cons]
    | false =>
      -- the step moves behind all steps of the other sort
      have hlast : (xs.filter first).foldl f (f b x) = f ((xs.filter first).foldl f b) x := by
        refine foldl_last (fun y hy => ?_) b
        obtain ⟨hy, hfirst⟩ := List.mem_filter.1 hy
        exact h y (List.mem_cons_of_mem _ hy) x List.mem_cons_self hfirst hx
      simp only [List.filter_cons, hx, Bool.not_false, if_true, Bool.false_eq_true, if_false,
        List.foldl_cons, hlast]

end Folding

namespace ClassSource

/-- The same class with its methods and properties in another order, in which the methods and the
properties each keep theirs. -/
structure Reordered (s s' : ClassSource) : Prop where
  target     : s'.target = s.target
  comment    : s'.comment = s.comment
  members    : s'.members.Perm s.members
  kinds      : ∀ m ∈ s.members, m.target.kind = .ofMethod ∨ m.target.kind = .ofProperty
  methods    : s'.members.filter (·.target.kind = .ofMethod)
    = s.members.filter (·.target.kind = .ofMethod)
  properties : s'.members.filter (·.target.kind = .ofProperty)
    = s.members.filter (·.target.kind = .ofProperty)

/-- The directives of the class itself, and those of its members. -/
theorem directives_eq (s : ClassSource) :
    s.directives = ElementSource.directives ⟨s.target, s.comment⟩
      ++ s.members.flatMap (·.directives) := by
  rw [directives, elements, List.flatMap_cons]

theorem Reordered.directives {s s' : ClassSource} (h : s.Reordered s') :
    s'.directives.Perm s.directives := by
  rw [directives_eq, directives_eq, h.target, h.comment]
  exact (h.members.flatMap_right _).append_left _

end ClassSource

/-- The directives of the members of a kind are those about elements of the kind. -/
theorem filter_flatMap_directives (kind : ElementKind) (ms : List ElementSource) :
    (ms.flatMap (·.directives)).filter (·.1.kind = kind)
      = (ms.filter (·.target.kind = kind)).flatMap (·.directives) := by
  induction ms with
  | nil => rfl
  | cons m ms ih =>
    have hm : m.directives.filter (·.1.kind = kind)
        = if m.target.kind = kind then m.directives else [] := by
      rw [ElementSource.directives, List.filter_map]
      by_cases h : m.target.kind = kind
      · simp [Function.comp_def, h]
      · simp [Function.comp_def, h]
    rw [List.flatMap_cons, List.filter_append, ih, hm]
    by_cases h : m.target.kind = kind
    · simp [h]
    · simp [h]

/-- Two reports that differ at most in the order of a batch. -/
def SameReport : Option Fault → Option Fault → Prop
  | some (.batch b), some (.batch b') => b.errors.Perm b'.errors
  | f,               f'               => f = f'

/-- Errors are raised as the same report in any order. -/
theorem Pass.raise_perm {es es' : List AnnotationError} (h : es.Perm es') :
    SameReport (raise es) (raise es') := by
  have hraised := raisedAs_raise es
  generalize raise es = f? at hraised ⊢
  cases hraised with
  | nothing hes =>
    obtain rfl := (hes ▸ h).nil_eq
    rfl
  | alone hes =>
    obtain rfl := List.perm_singleton.1 (hes ▸ h).symm
    rfl
  | batch hlen hplaces =>
    rw [raise_batch (h.length_eq ▸ hlen) fun x hx => hplaces x (h.mem_iff.2 hx)]
    exact h
  | overlong hlen hplaces =>
    rw [raise_overlong (h.length_eq ▸ hlen) fun hall =>
      hplaces fun x hx => hall x (h.mem_iff.1 hx)]
    rfl

namespace Processor

variable {s s' : ClassSource} {d : Descriptor}

/-- The directives of methods and of properties may be taken kind by kind. -/
theorem foldl_members {p : Processor} (hp : p.registry = .default) {ms : List ElementSource}
    (h : ∀ m ∈ ms, m.target.kind = .ofMethod ∨ m.target.kind = .ofProperty) (d : Descriptor) :
    (ms.flatMap (·.directives)).foldl p.next d
      = ((ms.filter (·.target.kind = .ofProperty)).flatMap (·.directives)).foldl p.next
        (((ms.filter (·.target.kind = .ofMethod)).flatMap (·.directives)).foldl p.next d) := by
  have hkind : ∀ x ∈ ms.flatMap (·.directives),
      x.1.kind = .ofMethod ∨ x.1.kind = .ofProperty := by
    intro x hx
    obtain ⟨m, hm, hx⟩ := List.mem_flatMap.1 hx
    obtain ⟨dir, -, rfl⟩ := List.mem_map.1 hx
    exact h m hm
  have hnot : ∀ x ∈ ms.flatMap (·.directives),
      (!decide (x.1.kind = .ofMethod)) = decide (x.1.kind = .ofProperty) := by
    intro x hx
    rcases hkind x hx with h | h <;> rw [h] <;> rfl
  rw [foldl_sorted (fun x => x.1.kind = .ofMethod) (fun x _ y hy hx hfirst d => ?_),
    List.filter_congr hnot, filter_flatMap_directives, filter_flatMap_directives]
  have hproperty : decide (y.1.kind = .ofProperty) = true := by rw [← hnot y hy, hfirst]; rfl
  exact next_comm hp (of_decide_eq_true hx) (of_decide_eq_true hproperty) d

/-- **Methods and properties of a class are independent.**  A pass comes to the same in any order of
the members in which methods and properties each keep theirs: to the same descriptor, the same
errors, and the same report but for the order of a batch. -/
theorem expandClass_reordered (h : s.Reordered s')
    (hgoesOn : (({} : Processor).expandClass s d).abort? = none) :
    let q := ({} : Processor).expandClass s d
    let q' := ({} : Processor).expandClass s' d
    q'.abort? = none ∧ q'.descriptor = q.descriptor ∧ q'.errors.Perm q.errors
      ∧ SameReport q'.fault q.fault := by
  intro q q'
  have hp : ({} : Processor).registry = .default := rfl
  have hblind := blind_default hp
  have hall := abort?_of_run hblind hgoesOn
  have hq : q = _ := run_of_blind hblind hall
  have hq' : q' = _ := run_of_blind hblind fun x hx => hall x (h.directives.mem_iff.1 hx)
  have herrors : q'.errors.Perm q.errors := by
    rw [hq, hq']
    exact (h.directives.map _).filterMap _
  have hgoesOn' : q'.abort? = none := by
    rw [hq']
    exact List.findSome?_eq_none_iff.2
      (List.forall_mem_map.2 fun x hx => hall x (h.directives.mem_iff.1 hx))
  refine ⟨hgoesOn', ?_, herrors, ?_⟩
  · have hkinds' : ∀ m ∈ s'.members, m.target.kind = .ofMethod ∨ m.target.kind = .ofProperty :=
      fun m hm => h.kinds m (h.members.mem_iff.1 hm)
    rw [hq, hq']
    dsimp only
    rw [ClassSource.directives_eq, ClassSource.directives_eq, List.foldl_append,
      List.foldl_append, foldl_members hp h.kinds, foldl_members hp hkinds', h.target, h.comment,
      h.methods, h.properties]
  · rw [fault_of_abort?_eq_none hgoesOn, fault_of_abort?_eq_none hgoesOn']
    exact Pass.raise_perm herrors

/-- A class with a primary key, and behind it a method with a route and a misspelt directive. -/
def keyFirst : ClassSource where
  target  := .forClass "User" (some "user.py") (some 4) []
  members := [
    ⟨⟨.ofProperty, "User", "id", some "user.py", some 5, []⟩, "!Column 'integer', 'PrimaryKey'"⟩,
    ⟨⟨.ofMethod, "User", "show", some "user.py", some 9, []⟩, "!Route 'GET', '$id'\n!Root"⟩]

/-- The same class with the method in front. -/
def routeFirst : ClassSource := { keyFirst with members := keyFirst.members.reverse }

theorem expandClass_reordered_keyFirst :
    let q := ({} : Processor).expandClass keyFirst { className := "User" }
    let q' := ({} : Processor).expandClass routeFirst { className := "User" }
    keyFirst.Reordered routeFirst ∧ q.abort? = none ∧ q'.descriptor = q.descriptor
      ∧ q'.errors.Perm q.errors ∧ SameReport q'.fault q.fault := by
  have hreordered : keyFirst.Reordered routeFirst := by
    refine ⟨rfl, rfl, ?_, ?_, ?_, ?_⟩ <;> decide
  have hds : keyFirst.directives
      = [(⟨.ofProperty, "User", "id", some "user.py", some 5, []⟩,
          ⟨"Column", "'integer', 'PrimaryKey'", 0⟩),
        (⟨.ofMethod, "User", "show", some "user.py", some 9, []⟩, ⟨"Route", "'GET', '$id'", 0⟩),
        (⟨.ofMethod, "User", "show", some "user.py", some 9, []⟩, ⟨"Root", "", 20⟩)] := by
    decide +kernel
  have hcolumn : Arguments.evaluate "'integer', 'PrimaryKey'"
      = .ok ⟨[.text "integer", .text "PrimaryKey"], .empty⟩ := by
    with_unfolding_all rfl
  have hroute : Arguments.evaluate "'GET', '$id'" = .ok ⟨[.text "GET", .text "$id"], .empty⟩ := by
    with_unfolding_all rfl
  have hempty : Arguments.evaluate "" = .ok ⟨[], .empty⟩ := by
    with_unfolding_all rfl
  have hharmless : ∀ x ∈ keyFirst.directives, Harmless x := by
    rw [hds, List.forall_mem_cons, List.forall_mem_cons, List.forall_mem_singleton]
    exact ⟨⟨.inl ⟨_, hcolumn⟩, fun h => absurd h.1 (by decide)⟩,
      ⟨.inl ⟨_, hroute⟩, fun h => absurd h.1 (by decide)⟩,
      ⟨.inl ⟨_, hempty⟩, fun h => absurd h.1 (by decide)⟩⟩
  have hgoesOn := (run_of_harmless (p := {}) rfl hharmless { className := "User" }).1
  exact ⟨hreordered, hgoesOn, (expandClass_reordered hreordered hgoesOn).2⟩

end Processor

end DocDirective
