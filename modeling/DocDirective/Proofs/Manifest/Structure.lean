import DocDirective.Proofs.Manifest.Listing
import DocDirective.Proofs.Text.Blank

/-!
# Proofs — Manifest — Structure

What the structure of a manifest becomes.  A manifest that is read gives one class for each of its
entries and one member for each of the entries below it, in order (`parse_preserves`).  Names are
texts of the entries without the blanks around them; a member is a method or a property and carries
the class that it belongs to; and a file that an entry does not name is that of the class around it,
or else the one that the whole manifest is given.
-/

namespace DocDirective.Manifest

variable {fields : Fields} {entry : Value}

/-! ### Names -/

/-- An entry names an element: the name is a text, without the blanks around it. -/
def NamedBy (entry : Value) (n : String) : Prop :=
  ∃ s, Value.field? (fieldsOf entry) "name" = some (.text s) ∧ n = Text.trimmed s ∧ Text.Tidy n

theorem namedBy_of_name {what n : String} (h : name (fieldsOf entry) what = .ok n) :
    NamedBy entry n := by
  unfold name at h
  split at h
  · rename_i s hs
    split at h
    · cases h
    · rename_i hblank
      cases h
      exact ⟨s, hs, rfl, Text.tidy_trimmed (Bool.of_not_eq_true hblank)⟩
  · cases h

/-! ### Files -/

/-- A value can be used as the name of a file: it is a text, a whole number or a truth value, and
its text is not blank. -/
inductive NamesFile : Value → String → Prop
  | text {s : String} (h : Text.isBlankText s = false) : NamesFile (.text s) s
  | int {n : Int} {s : String} (hs : (Value.int n).plain = .ok s)
      (h : Text.isBlankText s = false) : NamesFile (.int n) s
  | bool {b : Bool} {s : String} (hs : (Value.bool b).plain = .ok s)
      (h : Text.isBlankText s = false) : NamesFile (.bool b) s

/-- The file of an element: the one that its entry names, if it names one, and otherwise the one
around it. -/
inductive InFile (outer : Option String) (entry : Value) : Option String → Prop
  | own {v : Value} {f : String} (hv : Value.field? (fieldsOf entry) "file" = some v)
      (h : NamesFile v f) : InFile outer entry (some f)
  | outer (h : ∀ v f, Value.field? (fieldsOf entry) "file" = some v → ¬NamesFile v f) :
      InFile outer entry outer

/-- Only texts, whole numbers and truth values name files. -/
theorem NamesFile.cases_type {v : Value} {f : String} (h : NamesFile v f) :
    (∃ s, v = .text s) ∨ (∃ n, v = .int n) ∨ ∃ b, v = .bool b := by
  cases h with
  | text _   => exact .inl ⟨_, rfl⟩
  | int _ _  => exact .inr (.inl ⟨_, rfl⟩)
  | bool _ _ => exact .inr (.inr ⟨_, rfl⟩)

theorem NamesFile.plain_eq {v : Value} {f : String} (h : NamesFile v f) :
    v.plain = .ok f ∧ Text.isBlankText f = false := by
  cases h with
  | text h    => exact ⟨rfl, h⟩
  | int hs h  => exact ⟨hs, h⟩
  | bool hs h => exact ⟨hs, h⟩

/-- Where a value of one of the three types has a text, it names the file of that text, or none if
the text is blank. -/
theorem inFile_of_plain {outer own : Option String} {v : Value} {s : String}
    (hv : Value.field? (fieldsOf entry) "file" = some v) (hs : v.plain = .ok s)
    (hnames : Text.isBlankText s = false → NamesFile v s)
    (hown : own = if Text.isBlankText s then none else some s) :
    InFile outer entry (own.or outer) := by
  by_cases hblank : Text.isBlankText s = true
  · rw [if_pos hblank] at hown
    subst hown
    refine .outer ?_
    intro w f hw hf
    obtain rfl : v = w := Option.some.inj (hv.symm.trans hw)
    obtain ⟨hplain, hnot⟩ := hf.plain_eq
    obtain rfl : s = f := Except.ok.inj (hs.symm.trans hplain)
    exact absurd (hblank.symm.trans hnot) (by decide)
  · rw [if_neg hblank] at hown
    subst hown
    exact .own hv (hnames (Bool.of_not_eq_true hblank))

theorem inFile_of_file? {own : Option String} (h : file? (fieldsOf entry) = .ok own)
    (outer : Option String) : InFile outer entry (own.or outer) := by
  have hused {v : Value} (h : (plain v >>= fun s =>
      .ok (if Text.isBlankText s then none else some s)) = .ok own) :
      ∃ s, v.plain = .ok s ∧ own = if Text.isBlankText s then none else some s := by
    obtain ⟨s, hs, h⟩ := exists_of_bind h
    cases h
    unfold plain at hs
    split at hs
    · rename_i s' hplain
      cases hs
      exact ⟨s, hplain, rfl⟩
    · cases hs
  unfold file? at h
  split at h
  · rename_i s hv
    obtain ⟨t, ht, hown⟩ := hused h
    cases ht
    exact inFile_of_plain hv rfl .text hown
  · rename_i n hv
    obtain ⟨t, ht, hown⟩ := hused h
    exact inFile_of_plain hv ht (.int ht) hown
  · rename_i b hv
    obtain ⟨t, ht, hown⟩ := hused h
    exact inFile_of_plain hv ht (.bool ht) hown
  · rename_i htext hint hbool
    cases h
    refine .outer ?_
    intro v f hv hf
    rcases hf.cases_type with ⟨s, rfl⟩ | ⟨n, rfl⟩ | ⟨b, rfl⟩
    · exact htext s hv
    · exact hint n hv
    · exact hbool b hv

/-- Where there is a file around an element, the element is in a file. -/
theorem InFile.isSome {outer file : Option String} (h : InFile outer entry file)
    (houter : outer.isSome = true) : file.isSome = true := by
  cases h with
  | own _ _ => rfl
  | outer _ => exact houter

/-! ### Kinds -/

/-- The kind that an entry names for a member is one that members have. -/
theorem kind_of_memberKind {className n : String} {k : ElementKind}
    (h : memberKind fields className n = .ok k) :
    (∃ word, ((Value.field? fields "kind").getD (.text "")).plain = .ok word
        ∧ ElementKind.parse? word = some k)
      ∧ (k = .ofMethod ∨ k = .ofProperty) := by
  unfold memberKind at h
  split at h
  · cases h
  · rename_i word hword
    split at h
    · cases h
    · cases h
    · rename_i k' hclass hk
      cases h
      refine ⟨⟨word, hword, hk⟩, ?_⟩
      cases k with
      | ofClass    => exact (hclass rfl).elim
      | ofMethod   => exact .inl rfl
      | ofProperty => exact .inr rfl

/-! ### Sources -/

/-- A member of a class is that of an entry: it has the name and the kind of the entry, it belongs
to the class, and it is in the file of the class unless the entry names another. -/
structure MemberOf (owner : Target) (entry : Value) (e : ElementSource) : Prop where
  name      : NamedBy entry e.target.name
  kind      : e.target.kind = .ofMethod ∨ e.target.kind = .ofProperty
  word      : ∃ word, ((Value.field? (fieldsOf entry) "kind").getD (.text "")).plain = .ok word
    ∧ ElementKind.parse? word = some e.target.kind
  className : e.target.className = owner.className
  ancestors : e.target.ancestors = owner.ancestors
  file      : InFile owner.file entry e.target.file

/-- A class is that of an entry, and its members are those of the entries below it.  Its target is
one for a class, so that the check of a source finds nothing wrong with it. -/
structure ClassOf (outer : Option String) (entry : Value) (s : ClassSource) : Prop where
  name    : NamedBy entry s.target.className
  target  : s.target
    = .forClass s.target.className s.target.file s.target.line s.target.ancestors
  checked : ClassSource.mk? s.target s.comment s.members = some s
  file    : InFile outer entry s.target.file
  members : List.Forall₂ (MemberOf s.target) (memberEntries entry) s.members

theorem MemberRead.memberOf {owner : Target} {e : ElementSource}
    (h : MemberRead owner.className owner.file owner.ancestors entry e) :
    MemberOf owner entry e := by
  obtain ⟨hword, hkind⟩ := kind_of_memberKind h.kind
  obtain ⟨own, hown, hfile⟩ := h.file
  exact ⟨namedBy_of_name h.name, hkind, hword, h.className, h.ancestors,
    hfile ▸ inFile_of_file? hown owner.file⟩

theorem mk?_of_forClass {s : ClassSource} {className : String} {file : Option String}
    {line : Option Int} {ancestors : List String}
    (h : s.target = .forClass className file line ancestors) :
    ClassSource.mk? s.target s.comment s.members = some s :=
  dif_pos (congrArg Target.kind h)

theorem ClassRead.classOf {outer : Option String} {s : ClassSource}
    (h : ClassRead outer entry s) : ClassOf outer entry s := by
  obtain ⟨own, hown, hfile⟩ := h.file
  have hline : s.target.line = line? (fieldsOf entry) := congrArg Target.line h.target
  have htarget : s.target
      = .forClass s.target.className s.target.file s.target.line s.target.ancestors := by
    rw [hline]
    exact h.target
  exact ⟨namedBy_of_name h.name, htarget, mk?_of_forClass htarget,
    hfile ▸ inFile_of_file? hown outer, h.members.imp fun _ _ => MemberRead.memberOf⟩

/-- No element of a class lacks a file where the manifest is given one. -/
theorem ClassOf.isSome_file {outer : Option String} {s : ClassSource}
    (h : ClassOf outer entry s) (houter : outer.isSome = true) {e : ElementSource}
    (he : e ∈ s.elements) : e.target.file.isSome = true := by
  have hclass := h.file.isSome houter
  rcases List.mem_cons.1 he with rfl | he
  · exact hclass
  · obtain ⟨entry, hmember⟩ := exists_of_forall₂ h.members he
    exact hmember.file.isSome hclass

/-- **Reading a manifest preserves its structure.**  There is one class for each entry and one
member for each entry below it, in order, each with what its entry says and what stands around it;
and no element lacks a file where the manifest is given one. -/
theorem parse_preserves {v : Value} {outer : Option String} {ss : List ClassSource}
    (h : parse v outer = .ok ss) :
    List.Forall₂ (ClassOf outer) (entries v) ss
      ∧ (outer.isSome = true → ∀ s ∈ ss, ∀ e ∈ s.elements, e.target.file.isSome = true) := by
  have hclasses : List.Forall₂ (ClassOf outer) (entries v) ss :=
    (parse_read h).imp fun _ _ => ClassRead.classOf
  refine ⟨hclasses, ?_⟩
  intro houter s hs e he
  obtain ⟨entry, hclass⟩ := exists_of_forall₂ hclasses hs
  exact hclass.isSome_file houter he

/-- Two classes, the second with a file of its own and two members, of which one is in another
file and one has a blank for it. -/
def postSite : Value := .map [(.text "classes", .list [
  .map [(.text "name", .text "User")],
  .map [(.text "name", .text " Post "), (.text "file", .int 7),
    (.text "members", .list [
      .map [(.text "name", .text "show"), (.text "kind", .text "Methods"),
        (.text "file", .text "show.py")],
      .map [(.text "name", .text "title"), (.text "kind", .text "property"),
        (.text "file", .text " ")]])]])]

/-- The classes of that manifest where it is given a file. -/
def postSources : List ClassSource := [
  { target := .forClass "User" (some "site.yml") none [] },
  { target  := .forClass "Post" (some "7") none []
    members := [⟨⟨.ofMethod, "Post", "show", some "show.py", none, []⟩, ""⟩,
      ⟨⟨.ofProperty, "Post", "title", some "7", none, []⟩, ""⟩] }]

theorem parse_preserves_postSite : parse postSite (some "site.yml") = .ok postSources
    ∧ List.Forall₂ (ClassOf (some "site.yml")) (entries postSite) postSources
    ∧ ∀ s ∈ postSources, ∀ e ∈ s.elements, e.target.file.isSome = true := by
  have hparse : parse postSite (some "site.yml") = .ok postSources :=
    ok_of_toOption (by decide +kernel)
  obtain ⟨hclasses, hfiles⟩ := parse_preserves hparse
  exact ⟨hparse, hclasses, hfiles rfl⟩

end DocDirective.Manifest
