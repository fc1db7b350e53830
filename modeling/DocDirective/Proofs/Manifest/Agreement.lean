import DocDirective.Processor
import DocDirective.Proofs.Manifest.Structure
import DocDirective.Service.Form

/-!
# Proofs — Manifest — Agreement

A class can be described in an entry of a manifest, or in a request to the service.  The two are
read apart and by rules of their own, of which those of a manifest are the looser ones: it trims
names, and takes numbers for files and texts for lines.  Where a description is fit for both
(`ClassForm.Fit`), they come to the same: both give the same source, or both refuse it for the same
member and the same reason (`classSource_agrees`); so whatever is made of a source does not depend
on where the description stood.
-/

namespace DocDirective

open Service

/-! ### Readers that agree -/

/-- Two readers come to the same: they give the same value, or refuse for reasons that
correspond. -/
inductive Agree {ε δ α : Type} (R : ε → δ → Prop) : Except ε α → Except δ α → Prop
  | given (a : α) : Agree R (.ok a) (.ok a)
  | refused {e : ε} {d : δ} (h : R e d) : Agree R (.error e) (.error d)

namespace Agree

variable {ε δ α β : Type} {R : ε → δ → Prop}

theorem bind {x : Except ε α} {y : Except δ α} {f : α → Except ε β} {g : α → Except δ β}
    (h : Agree R x y) (hfg : ∀ a, Agree R (f a) (g a)) : Agree R (x >>= f) (y >>= g) := by
  cases h with
  | given a   => exact hfg a
  | refused h => exact .refused h

/-- Rows that are read item by item are read alike, up to the first item that both refuse. -/
theorem mapM {ι κ : Type} {P : ι → κ → Prop} {xs : List ι} {ys : List κ}
    {f : ι → Except ε α} {g : κ → Except δ α} (h : List.Forall₂ P xs ys)
    (hstep : ∀ x, ∀ y ∈ ys, P x y → Agree R (f x) (g y)) : Agree R (xs.mapM f) (ys.mapM g) := by
  induction h with
  | nil => exact .given []
  | cons hxy _ ih =>
    rw [List.mapM_cons, List.mapM_cons]
    refine (hstep _ _ List.mem_cons_self hxy).bind ?_
    intro a
    have htail := ih fun x y hy => hstep x y (List.mem_cons_of_mem _ hy)
    exact htail.bind fun as => .given (a :: as)

theorem toOption_eq {x : Except ε α} {y : Except δ α} (h : Agree R x y) :
    x.toOption = y.toOption := by
  cases h <;> rfl

end Agree

/-! ### Descriptions -/

namespace Service

/-- A described member is fit for a manifest: its name needs no trimming, and its file, if it has
one, is not blank. -/
structure MemberForm.Fit (m : MemberForm) : Prop where
  name : Text.Tidy m.name
  file : ∀ f ∈ m.file, Text.isBlankText f = false

/-- A described class is fit for a manifest, and so are its members. -/
structure ClassForm.Fit (c : ClassForm) : Prop where
  name    : Text.Tidy c.className
  file    : ∀ f ∈ c.file, Text.isBlankText f = false
  members : ∀ m ∈ c.members, m.Fit

/-- The kind of a described member is one that members have. -/
def MemberForm.NamesKind (m : MemberForm) : Prop :=
  ElementKind.parse? m.kind = some .ofMethod ∨ ElementKind.parse? m.kind = some .ofProperty

instance (m : MemberForm) : Decidable m.NamesKind :=
  inferInstanceAs (Decidable (_ ∨ _))

end Service

namespace Manifest

variable {fields : Fields}

/-- The fields of an entry describe a member.  What the member does not have is missing, or null
where it may be. -/
structure DescribesMember (fields : Fields) (m : MemberForm) : Prop where
  kind    : Value.field? fields "kind" = some (.text m.kind)
  name    : Value.field? fields "name" = some (.text m.name)
  comment : (Value.field? fields "comment").getD (.text "") = .text m.comment
  file    : (Value.field? fields "file").getD .null = .ofText? m.file
  line    : (Value.field? fields "line").getD .null = .ofInt? m.line

/-- The fields of an entry describe a class with its members. -/
structure Describes (fields : Fields) (c : ClassForm) : Prop where
  name      : Value.field? fields "name" = some (.text c.className)
  comment   : (Value.field? fields "comment").getD (.text "") = .text c.comment
  file      : (Value.field? fields "file").getD .null = .ofText? c.file
  line      : (Value.field? fields "line").getD .null = .ofInt? c.line
  ancestors : (Value.field? fields "ancestors").getD (.list []) = .list (c.ancestors.map .text)
  members   : ∃ rows : List Fields,
    (Value.field? fields "members").getD (.list []) = .list (rows.map .map)
      ∧ List.Forall₂ DescribesMember rows c.members

/-! ### The fields of a description -/

/-- A part that is missing is what it is missing for. -/
theorem getD_eq_iff {v? : Option Value} {default v : Value} :
    v?.getD default = v ↔ v? = some v ∨ v? = none ∧ default = v := by
  cases v? <;> simp

theorem name_of_tidy {what n : String} (h : Value.field? fields "name" = some (.text n))
    (hn : Text.Tidy n) : name fields what = .ok n := by
  simp [name, h, hn.notBlank, hn.trimmed]

theorem comment_of_described {s : String}
    (h : (Value.field? fields "comment").getD (.text "") = .text s) : comment fields = .ok s := by
  rcases getD_eq_iff.1 h with hfield | ⟨hfield, hs⟩
  · simp [comment, hfield]
  · cases hs
    simp [comment, hfield]

theorem file?_of_described {f? : Option String} (hf : ∀ f ∈ f?, Text.isBlankText f = false)
    (h : (Value.field? fields "file").getD .null = .ofText? f?) : file? fields = .ok f? := by
  cases f? with
  | none =>
    rcases getD_eq_iff.1 h with hfield | ⟨hfield, -⟩
    · simp [file?, hfield, Value.ofText?, pure, Except.pure]
    · simp [file?, hfield, pure, Except.pure]
  | some f =>
    rcases getD_eq_iff.1 h with hfield | ⟨-, hnone⟩
    · simp [file?, hfield, Value.ofText?, plain, Value.plain, hf f rfl, bind, Except.bind, pure,
        Except.pure]
    · cases hnone

theorem line?_of_described {n? : Option Int}
    (h : (Value.field? fields "line").getD .null = .ofInt? n?) : line? fields = n? := by
  cases n? with
  | none =>
    rcases getD_eq_iff.1 h with hfield | ⟨hfield, -⟩
    · simp [line?, hfield, Value.ofInt?]
    · simp [line?, hfield]
  | some n =>
    rcases getD_eq_iff.1 h with hfield | ⟨-, hnone⟩
    · simp [line?, hfield, Value.ofInt?]
    · cases hnone

theorem mapM_plain_text (as : List String) : (as.map Value.text).mapM plain = .ok as := by
  induction as with
  | nil => rfl
  | cons a as ih =>
    rw [List.map_cons, List.mapM_cons, ih]
    rfl

theorem ancestors_of_described {as : List String}
    (h : (Value.field? fields "ancestors").getD (.list []) = .list (as.map .text)) :
    ancestors fields = .ok as := by
  rcases getD_eq_iff.1 h with hfield | ⟨hfield, hnone⟩
  · rw [ancestors, hfield, Option.getD_some]
    cases as with
    | nil       => rfl
    | cons a as => exact mapM_plain_text (a :: as)
  · cases as with
    | nil =>
      rw [ancestors, hfield]
      rfl
    | cons a as => cases hnone

/-! ### The two readers -/

/-- A manifest and a request are refused for the same reason; only a manifest says in which
class. -/
inductive SameReason (className : String) : ManifestError → FormError → Prop
  | unknownKind (name kind : String) :
    SameReason className (.unknownKind className name kind) (.unknownKind kind)
  | memberIsClass (name : String) :
    SameReason className (.memberIsClass className name) (.memberIsClass name)

/-- A file that is not blank is not empty. -/
theorem nonEmpty?_eq_self {f? : Option String} (h : ∀ f ∈ f?, Text.isBlankText f = false) :
    nonEmpty? f? = f? := by
  cases f? with
  | none => rfl
  | some f =>
    refine Option.filter_eq_some_iff.2 ⟨rfl, ?_⟩
    cases hempty : f.isEmpty with
    | false => rfl
    | true =>
      have hblank := h f rfl
      rw [String.isEmpty_iff.1 hempty] at hblank
      cases hblank

/-- A member is read alike below the same class. -/
theorem memberSource_agrees {m : MemberForm} (h : DescribesMember fields m) (hm : m.Fit)
    (c : ClassForm) :
    Agree (SameReason c.className)
      (memberSource c.className c.file c.ancestors (.map fields)) (m.source c) := by
  simp only [memberSource, name_of_tidy h.name hm.name, memberKind, h.kind, Option.getD_some,
    Value.plain, file?_of_described hm.file h.file, comment_of_described h.comment,
    line?_of_described h.line, MemberForm.source, nonEmpty?_eq_self hm.file]
  cases ElementKind.parse? m.kind with
  | none => exact .refused (.unknownKind m.name m.kind)
  | some k =>
    cases k with
    | ofClass    => exact .refused (.memberIsClass m.name)
    | ofMethod   => exact .given _
    | ofProperty => exact .given _

theorem members_agree {c : ClassForm} (h : Describes fields c) (hc : c.Fit) :
    Agree (SameReason c.className)
      (members fields c.className c.file c.ancestors) (c.members.mapM (MemberForm.source c)) := by
  obtain ⟨rows, hrows, hall⟩ := h.members
  have hread : members fields c.className c.file c.ancestors
      = rows.mapM fun row => memberSource c.className c.file c.ancestors (.map row) := by
    rcases getD_eq_iff.1 hrows with hfield | ⟨hfield, hnone⟩
    · rw [members, hfield, Option.getD_some]
      cases rows with
      | nil => rfl
      | cons row rows => exact List.mapM_map ..
    · cases rows with
      | nil =>
        rw [members, hfield]
        rfl
      | cons row rows => cases hnone
  rw [hread]
  exact Agree.mapM hall fun row m hm hrow => memberSource_agrees hrow (hc.members m hm) c

/-! ### Refusals -/

theorem exists_source_iff {c : ClassForm} {m : MemberForm} :
    (∃ e, m.source c = .ok e) ↔ m.NamesKind := by
  unfold MemberForm.source MemberForm.NamesKind
  cases ElementKind.parse? m.kind with
  | none => simp
  | some k => cases k <;> simp

/-- A described class is refused exactly if one of its members names no kind that members have. -/
theorem exists_classSource_iff {c : ClassForm} :
    (∃ s, c.source = .ok s) ↔ ∀ m ∈ c.members, m.NamesKind := by
  have hmembers : (∃ es, c.members.mapM (MemberForm.source c) = .ok es)
      ↔ ∀ m ∈ c.members, m.NamesKind := by
    simp only [exists_mapM_iff, exists_source_iff]
  rw [← hmembers, ClassForm.source]
  constructor
  · rintro ⟨s, hs⟩
    obtain ⟨es, hes, -⟩ := exists_of_bind hs
    exact ⟨es, hes⟩
  · rintro ⟨es, hes⟩
    rw [hes]
    exact ⟨_, rfl⟩

/-! ### Classes -/

/-- **An entry of a manifest and a request that describe the same class come to the same.**  If the
description is fit for both, they give the same source, or they are refused for the same member and
the same reason, which is the case exactly if some member names no kind that members have.  So
expanding what they give, whatever the registry and the descriptor are, comes to the same. -/
theorem classSource_agrees {c : ClassForm} (h : Describes fields c) (hc : c.Fit) :
    Agree (SameReason c.className) (classSource none (.map fields)) c.source
      ∧ ((∃ s, classSource none (.map fields) = .ok s ∧ c.source = .ok s)
        ↔ ∀ m ∈ c.members, m.NamesKind)
      ∧ ∀ (p : Processor) (d : Descriptor),
        (classSource none (.map fields)).toOption.map (p.expandClass · d)
          = c.source.toOption.map (p.expandClass · d) := by
  have hagree : Agree (SameReason c.className) (classSource none (.map fields)) c.source := by
    simp only [classSource, name_of_tidy h.name hc.name, file?_of_described hc.file h.file,
      ancestors_of_described h.ancestors, comment_of_described h.comment,
      line?_of_described h.line, Option.or_none]
    exact (members_agree h hc).bind fun es => .given _
  refine ⟨hagree, ?_, ?_⟩
  · rw [← exists_classSource_iff]
    generalize c.source = x at hagree
    generalize classSource none (.map fields) = y at hagree
    cases hagree with
    | given s   => simp
    | refused _ => simp
  · intro p d
    rw [hagree.toOption_eq]

/-- A class with a file and two members, of which one names its kind loosely and one has a file of
its own. -/
def postForm : ClassForm where
  className := "Post"
  file      := some "post.py"
  ancestors := ["Record"]
  members   := [{ kind := "Methods", name := "show", line := some 12 },
    { kind := "property", name := "title", comment := "// @Hidden", file := some "title.py" }]

/-- The member entries of that class, each with what the member has. -/
def postMembers : List Fields := [
  [(.text "kind", .text "Methods"), (.text "name", .text "show"), (.text "file", .null),
    (.text "line", .int 12)],
  [(.text "kind", .text "property"), (.text "name", .text "title"),
    (.text "comment", .text "// @Hidden"), (.text "file", .text "title.py")]]

/-- The entry of that class. -/
def postFields : Fields := [
  (.text "name", .text "Post"), (.text "file", .text "post.py"), (.text "line", .null),
  (.text "ancestors", .list [.text "Record"]), (.text "members", .list (postMembers.map .map))]

theorem describes_post : Describes postFields postForm where
  name      := rfl
  comment   := rfl
  file      := rfl
  line      := rfl
  ancestors := rfl
  members   := ⟨postMembers, rfl, .cons ⟨rfl, rfl, rfl, rfl, rfl⟩
    (.cons ⟨rfl, rfl, rfl, rfl, rfl⟩ .nil)⟩

theorem fit_post : postForm.Fit where
  name    := ⟨by decide, by decide⟩
  file    := by decide
  members := by
    intro m hm
    rcases List.mem_pair.1 hm with rfl | rfl
    · exact ⟨⟨by decide, by decide⟩, by decide⟩
    · exact ⟨⟨by decide, by decide⟩, by decide⟩

theorem classSource_agrees_postForm :
    (Describes postFields postForm ∧ postForm.Fit)
      ∧ ∃ s, classSource none (.map postFields) = .ok s ∧ postForm.source = .ok s := by
  obtain ⟨-, hgiven, -⟩ := classSource_agrees describes_post fit_post
  exact ⟨⟨describes_post, fit_post⟩, hgiven.2 (by decide +kernel)⟩

end Manifest

end DocDirective
