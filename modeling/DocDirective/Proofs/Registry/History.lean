import DocDirective.Proofs.Keyed
import DocDirective.Registry.Basic
import Mathlib.Data.List.Nodup
import Mathlib.Tactic.SplitIfs

/-!
# Proofs — Registry — History

What a registry holds after any history of offers and closings.  Every kind stands under its own
name, which is an identifier with the common end behind it, and applies to something (`Sound`);
one operation keeps that, and with it the directives of a registry are exactly the identifiers of
its kinds.  An open registry takes every kind that is fit, in the place of an earlier one of its
name (`Takes`); any other offer leaves the registry as it was, and behind a closing nothing changes
any more (`history`).
-/

namespace DocDirective

/-! ### Names of kinds -/

namespace Kind

theorem suffix_ne_append {s : String} (hs : s ≠ "") : s ++ suffix ≠ suffix := by
  intro h
  have hlist : s.toList ++ suffix.toList = suffix.toList := by
    rw [← String.toList_append, h]
  exact hs (String.toList_eq_nil_iff.1 (List.append_left_eq_self.1 hlist))

/-- The part in front of the common end is there again. -/
theorem identifierOf_append {s : String} (hs : s ≠ "") : identifierOf (s ++ suffix) = s := by
  have hlen : 0 < s.toList.length :=
    List.length_pos_iff.2 fun h => hs (String.toList_eq_nil_iff.1 h)
  have hlist : (s ++ suffix).toList = s.toList ++ suffix.toList := String.toList_append
  have hlonger : suffix.toList.length < s.toList.length + suffix.toList.length :=
    Nat.lt_add_of_pos_left hlen
  have htail : suffix.toList.isSuffixOf (s.toList ++ suffix.toList) = true :=
    List.isSuffixOf_iff_suffix.2 (List.suffix_append _ _)
  simp only [identifierOf, hlist, htail, List.length_append, hlonger, decide_true, Bool.and_self,
    if_true, Nat.add_sub_cancel, List.take_left, String.ofList_toList]

theorem isKindName_iff {name : String} :
    Registry.isKindName name = true ↔ ∃ s, s ≠ "" ∧ name = s ++ suffix := by
  rw [Registry.isKindName, Bool.and_eq_true, List.isSuffixOf_iff_suffix, decide_eq_true_iff]
  constructor
  · rintro ⟨⟨front, hfront⟩, hne⟩
    have hname : name = String.ofList front ++ suffix := by
      rw [← String.ofList_toList (s := name), ← hfront, String.ofList_append,
        String.ofList_toList]
    refine ⟨String.ofList front, fun hempty => hne ?_, hname⟩
    rw [hname, hempty]
    rfl
  · rintro ⟨s, hs, rfl⟩
    exact ⟨⟨s.toList, String.toList_append.symm⟩, suffix_ne_append hs⟩

end Kind

namespace Registry

variable {r r' : Registry}

/-! ### Entries -/

/-- A kind stands under its own name, an identifier with the common end behind it, and applies to
something. -/
structure Fit (e : String × Kind) : Prop where
  name       : e.2.name = e.1
  identifier : e.2.identifier ≠ ""
  suffix     : e.1 = e.2.identifier ++ Kind.suffix
  applies    : ∃ mask, e.2.mask = some mask ∧ mask.bits ≠ 0

/-- Every entry is fit. -/
def Sound (r : Registry) : Prop := ∀ e ∈ r.kinds.entries, Fit e

theorem exists_mask_of_bits {k : Kind} (h : k.bits ≠ 0) :
    ∃ mask, k.mask = some mask ∧ mask.bits ≠ 0 := by
  unfold Kind.bits at h
  cases hm : k.mask with
  | none => exact absurd (by rw [hm]; rfl) h
  | some mask =>
    rw [hm] at h
    exact ⟨mask, rfl, h⟩

/-- A kind is fit to stand under its name if it is named as kinds are and applies to something. -/
theorem fit_iff {k : Kind} : Fit (k.name, k) ↔ k.bits ≠ 0 ∧ isKindName k.name = true := by
  constructor
  · rintro ⟨-, hid, hsuffix, mask, hmask, hbits⟩
    refine ⟨?_, Kind.isKindName_iff.2 ⟨k.identifier, hid, hsuffix⟩⟩
    rwa [Kind.bits, hmask]
  · rintro ⟨hbits, hname⟩
    obtain ⟨s, hs, hk⟩ := Kind.isKindName_iff.1 hname
    have hid : k.identifier = s := by rw [Kind.identifier, hk, Kind.identifierOf_append hs]
    exact ⟨rfl, by rwa [hid], by rw [hid]; exact hk, exists_mask_of_bits hbits⟩

/-! ### Looking up -/

theorem find?_eq_some_iff (hr : r.Sound) {n : String} {k : Kind} :
    r.find? n = some k ↔ k ∈ r.kinds.values ∧ k.identifier = n := by
  rw [find?, Keyed.get?_eq_some_iff]
  constructor
  · intro hmem
    have hid : n = k.identifier := (String.append_left_inj Kind.suffix).1 (hr _ hmem).suffix
    exact ⟨List.mem_map.2 ⟨_, hmem, rfl⟩, hid.symm⟩
  · rintro ⟨hk, rfl⟩
    obtain ⟨⟨name, k⟩, hmem, rfl⟩ := List.mem_map.1 hk
    have hname : name = k.identifier ++ Kind.suffix := (hr _ hmem).suffix
    rwa [← hname]

theorem lookup_eq_ok_iff {n : String} {k : Kind} : r.lookup n = .ok k ↔ r.find? n = some k := by
  unfold lookup
  split <;> simp_all

theorem contains_iff {n : String} : r.contains n = true ↔ ∃ k, r.find? n = some k :=
  Option.isSome_iff_exists

/-- Two kinds never share an identifier. -/
theorem nodup_names (hr : r.Sound) : r.names.Nodup := by
  have hnames : r.names.map (· ++ Kind.suffix) = r.kinds.entries.map (·.1) := by
    rw [names, Keyed.values, List.map_map, List.map_map]
    exact List.map_congr_left fun e he => (hr e he).suffix.symm
  exact List.Nodup.of_map _ (hnames ▸ r.kinds.nodup)

/-! ### One operation -/

/-- What can be done to a registry. -/
inductive Operation
  | register (o : Offer)
  | freeze

/-- The registry after an operation, whether or not an offer was turned down. -/
def after (r : Registry) : Operation → Registry
  | .register o =>
    match r.register o with
    | .ok r'   => r'
    | .error _ => r
  | .freeze     => r.freeze

/-- An offer is taken exactly if the registry is open and the offer is a kind that is fit. -/
theorem register_eq_ok_iff {o : Offer} : r.register o = .ok r' ↔
    ∃ k, o = .kind k ∧ r.frozen = false ∧ Fit (k.name, k)
      ∧ r' = { r with kinds := r.kinds.insert k.name k } := by
  simp only [fit_iff, and_assoc]
  cases o with
  | value v =>
    unfold register refusal?
    cases r.frozen <;> simp
  | kind k =>
    unfold register refusal?
    dsimp only
    constructor
    · intro h
      split at h
      · cases h
      · rename_i heq hnone
        cases heq
        split_ifs at hnone with hfrozen hbits hname
        cases h
        exact ⟨k, rfl, eq_false_of_ne_true hfrozen, hbits, by simpa using hname, rfl⟩
      · rename_i heq _
        cases heq
    · rintro ⟨_, ⟨⟩, hopen, hbits, hname, rfl⟩
      simp only [hopen, hbits, hname, Bool.false_eq_true, Bool.not_true, if_false]

theorem Sound.after (hr : r.Sound) (o : Operation) : (r.after o).Sound := by
  cases o with
  | freeze => exact hr
  | register o =>
    rw [Registry.after]
    split
    · rename_i r' h
      obtain ⟨k, -, -, hfit, rfl⟩ := register_eq_ok_iff.1 h
      intro e he
      obtain rfl | he := Keyed.mem_assign he
      · exact hfit
      · exact hr e he
    · exact hr

/-- A closed registry stays as it is. -/
theorem after_of_frozen (hr : r.frozen = true) (o : Operation) : r.after o = r := by
  cases o with
  | freeze => rw [after, freeze, ← hr]
  | register o =>
    rw [after]
    split
    · rename_i r' h
      obtain ⟨k, -, hopen, -⟩ := register_eq_ok_iff.1 h
      cases hr.symm.trans hopen
    · rfl

theorem frozen_after (o : Operation) :
    (r.after o).frozen = true ↔ r.frozen = true ∨ o = .freeze := by
  cases o with
  | freeze => simp [after, freeze]
  | register o =>
    rw [after]
    split
    · rename_i r' h
      obtain ⟨k, -, -, -, rfl⟩ := register_eq_ok_iff.1 h
      simp
    · simp

/-- What a kind that is taken makes of a registry: it stands where an earlier kind of its name
stood, or else at the end. -/
structure Takes (r : Registry) (k : Kind) (r' : Registry) : Prop where
  frozen   : r'.frozen = r.frozen
  replaces : ∀ before old behind, r.kinds.entries = before ++ (k.name, old) :: behind →
    r'.kinds.entries = before ++ (k.name, k) :: behind
  appends  : k.name ∉ r.kinds.keys → r'.kinds.entries = r.kinds.entries ++ [(k.name, k)]

/-- An open registry takes every kind that is fit. -/
theorem takes_of_fit {k : Kind} (hopen : r.frozen = false) (hk : Fit (k.name, k)) :
    ∃ r', r.register (.kind k) = .ok r' ∧ r.after (.register (.kind k)) = r' ∧ r.Takes k r' := by
  have hregister := register_eq_ok_iff.2 ⟨k, rfl, hopen, hk, rfl⟩
  refine ⟨_, hregister, by rw [after, hregister], rfl, fun before old behind heq => ?_, ?_⟩
  · exact Keyed.entries_insert_of_eq heq
  · exact Keyed.assign_of_not_mem k

/-- Any other offer is turned down, and leaves the registry as it was. -/
theorem register_of_not_fit {o : Offer}
    (ho : ¬∃ k, o = .kind k ∧ r.frozen = false ∧ Fit (k.name, k)) :
    (∃ e, r.register o = .error e) ∧ r.after (.register o) = r := by
  rw [after]
  cases h : r.register o with
  | error e => exact ⟨⟨e, rfl⟩, rfl⟩
  | ok r' =>
    obtain ⟨k, hk, hopen, hfit, -⟩ := register_eq_ok_iff.1 h
    exact absurd ⟨k, hk, hopen, hfit⟩ ho

/-! ### A whole history -/

/-- The registry after operations, one after another. -/
def afterAll (r : Registry) (os : List Operation) : Registry := os.foldl after r

theorem sound_empty : empty.Sound := by
  intro e he
  cases he

theorem Sound.afterAll (hr : r.Sound) (os : List Operation) : (r.afterAll os).Sound := by
  induction os generalizing r with
  | nil => exact hr
  | cons o os ih => exact ih (hr.after o)

theorem afterAll_of_frozen (hr : r.frozen = true) (os : List Operation) : r.afterAll os = r := by
  induction os with
  | nil => rfl
  | cons o os ih => rwa [afterAll, List.foldl_cons, after_of_frozen hr]

theorem frozen_afterAll (os : List Operation) :
    (r.afterAll os).frozen = true ↔ r.frozen = true ∨ .freeze ∈ os := by
  induction os generalizing r with
  | nil => simp [afterAll]
  | cons o os ih =>
    rw [afterAll, List.foldl_cons, ← afterAll, ih, frozen_after, List.mem_cons, or_assoc,
      eq_comm (a := o)]

/-- **The history of a registry.**  After any offers and closings, each kind stands under its own
name, which is an identifier with the common end behind it, and applies to something; no two kinds
share an identifier.  The directives that are looked up with success are those that the registry
contains, the identifiers of its kinds, and each finds its kind.  As long as nothing has closed the
registry, it takes every kind that is fit to stand in it, whether or not it has one of that name:
the kind replaces the earlier one in its place, or goes to the end.  Any other offer is turned down
and leaves everything as it is; and behind a closing the kinds and their order stay. -/
theorem history (earlier later : List Operation) :
    let r := empty.afterAll earlier
    (∀ e ∈ r.kinds.entries, Fit e)
      ∧ r.names.Nodup
      ∧ (∀ n, ((∃ k, r.lookup n = .ok k) ↔ r.contains n = true)
        ∧ (r.contains n = true ↔ ∃ k ∈ r.kinds.values, k.identifier = n))
      ∧ (∀ n k, r.lookup n = .ok k ↔ k ∈ r.kinds.values ∧ k.identifier = n)
      ∧ (r.frozen = true ↔ .freeze ∈ earlier)
      ∧ (∀ k, r.frozen = false → Fit (k.name, k) →
        ∃ r', r.register (.kind k) = .ok r' ∧ r.after (.register (.kind k)) = r' ∧ r.Takes k r')
      ∧ (∀ o, (¬∃ k, o = .kind k ∧ r.frozen = false ∧ Fit (k.name, k)) →
        (∃ e, r.register o = .error e) ∧ r.after (.register o) = r)
      ∧ (r.after .freeze).afterAll later = { r with frozen := true } := by
  intro r
  have hr : r.Sound := sound_empty.afterAll earlier
  have hfind (n : String) : (∃ k, r.lookup n = .ok k) ↔ ∃ k, r.find? n = some k :=
    exists_congr fun _ => lookup_eq_ok_iff
  refine ⟨hr, nodup_names hr, fun n => ⟨(hfind n).trans contains_iff.symm, ?_⟩,
    fun n k => lookup_eq_ok_iff.trans (find?_eq_some_iff hr), ?_, fun k => takes_of_fit,
    fun o => register_of_not_fit, afterAll_of_frozen rfl later⟩
  · exact contains_iff.trans (exists_congr fun k => find?_eq_some_iff hr)
  · rw [frozen_afterAll]
    exact or_iff_right Bool.false_ne_true

/-- A route that is declared anew stands in front of the table still, and its directive belongs to
the new kind. -/
theorem history_anew :
    let anew : Kind := { Kind.route with serial := 7, usage := "!Route" }
    let r := empty.afterAll [.register (.kind Kind.route), .register (.kind Kind.table)]
    ∃ r', r.register (.kind anew) = .ok r'
      ∧ r'.kinds.entries = [("RouteAnnotation", anew), ("TableAnnotation", Kind.table)]
      ∧ r'.lookup "Route" = .ok anew := by
  intro anew r
  have hanew : Fit (anew.name, anew) := fit_iff.2 ⟨by decide, by decide⟩
  obtain ⟨-, -, -, -, -, htakes, -⟩ :=
    history [.register (.kind Kind.route), .register (.kind Kind.table)] []
  obtain ⟨r', hregister, -, htaken⟩ := htakes anew rfl hanew
  have hentries := htaken.replaces [] Kind.route [("TableAnnotation", Kind.table)] rfl
  refine ⟨r', hregister, hentries, lookup_eq_ok_iff.2 ?_⟩
  rw [find?, Keyed.get?, hentries]
  rfl

end Registry

end DocDirective
