import DocDirective.Manifest
import DocDirective.Proofs.Steps

/-!
# Proofs — Manifest — Listing

What a manifest lists.  Its classes are the entries of its document, in order, and their members
are the entries below them.  Every element has the comment and the line of its entry; its file is
the one that the entry names, or else the one around it, which is that of its class for a member
and that of the manifest for a class (`load_lists`).  No file has an empty name, so that every
element can be told where it stands.
-/

namespace DocDirective

/-- A path that a text writes is not written as nothing. -/
theorem Path.text_ofText_ne_empty (s : String) : (Path.ofText s).text ≠ "" := by
  have hnames : ∀ n ∈ (Path.ofText s).names, n ≠ "" := by
    intro n hn
    have hkept := List.of_mem_filter hn
    simp only [Bool.and_eq_true, decide_eq_true_eq] at hkept
    exact hkept.1
  generalize Path.ofText s = p at hnames
  obtain ⟨slashes, names⟩ := p
  rw [Path.text]
  split
  · decide
  · rename_i hsome
    rw [ne_eq, ← String.toList_inj, String.toList_append, String.toList_intercalate,
      String.toList_ofList, String.toList_empty, List.append_eq_nil_iff, List.replicate_eq_nil_iff]
    rintro ⟨rfl, hempty⟩
    cases names with
    | nil => exact hsome rfl
    | cons n rest =>
      refine hnames n List.mem_cons_self (String.toList_eq_nil_iff.1 ?_)
      rw [List.map_cons] at hempty
      cases rest with
      | nil => simpa using hempty
      | cons m rest =>
        rw [List.map_cons, List.intercalate_cons_cons, List.append_eq_nil_iff] at hempty
        exact (List.append_eq_nil_iff.1 hempty.1).1

namespace Manifest

variable {v : Value} {fields : Fields}

/-! ### Entries -/

/-- The items of a list. -/
def items : Value → List Value
  | .list vs => vs
  | _        => []

/-- The fields of an entry. -/
def fieldsOf : Value → Fields
  | .map fields => fields
  | _           => []

/-- The entries of the classes in a document. -/
def entries : Value → List Value
  | .map fields => items ((Value.field? fields "classes").getD (.list []))
  | v           => items v

/-- The entries of the members of a class. -/
def memberEntries (entry : Value) : List Value :=
  items ((Value.field? (fieldsOf entry) "members").getD .null)

theorem items_of_isBare (h : v.isBare = true) : items v = [] := by
  cases v with
  | list vs => exact List.isEmpty_iff.1 h
  | _       => rfl

/-- A file that an entry names has a name. -/
theorem file?_ne_empty {s : String} (h : file? fields = .ok (some s)) : s ≠ "" := by
  rintro rfl
  have hused (v : Value) : ((plain v).bind fun s =>
      .ok (if Text.isBlankText s then none else some s)) ≠ .ok (some "") := by
    intro h
    cases hplain : plain v with
    | error e => rw [hplain] at h; cases h
    | ok s =>
      rw [hplain] at h
      simp only [Except.bind, Except.ok.injEq] at h
      split at h
      · cases h
      · rename_i hblank
        cases h
        exact hblank rfl
  unfold file? at h
  split at h
  · exact hused _ h
  · exact hused _ h
  · exact hused _ h
  · cases h

/-! ### Elements and their entries -/

/-- An element is told of by an entry, with a file around it. -/
structure Tells (outer : String) (entry : Value) (e : ElementSource) : Prop where
  file    : ∃ own, file? (fieldsOf entry) = .ok own ∧ e.target.file = some (own.getD outer)
  line    : e.target.line = line? (fieldsOf entry)
  comment : Manifest.comment (fieldsOf entry) = .ok e.comment

/-- A class and its members are those of an entry, in the manifest of a path. -/
structure Lists (path : String) (entry : Value) (s : ClassSource) : Prop where
  name    : Manifest.name (fieldsOf entry) "class" = .ok s.target.className
  self    : Tells path entry ⟨s.target, s.comment⟩
  members : ∃ file, s.target.file = some file
    ∧ List.Forall₂ (Tells file) (memberEntries entry) s.members

/-- The file of an element is not empty if the one around it is not. -/
theorem Tells.file_ne_empty {outer : String} {entry : Value} {e : ElementSource}
    (h : Tells outer entry e) (houter : outer ≠ "") :
    ∃ file, e.target.file = some file ∧ file ≠ "" := by
  obtain ⟨own, hown, hfile⟩ := h.file
  refine ⟨_, hfile, ?_⟩
  cases own with
  | none      => exact houter
  | some file => exact file?_ne_empty hown

theorem Lists.file_ne_empty {path : String} {entry : Value} {s : ClassSource}
    (h : Lists path entry s) (hpath : path ≠ "") {e : ElementSource} (he : e ∈ s.elements) :
    ∃ file, e.target.file = some file ∧ file ≠ "" := by
  obtain ⟨file, hfile, hmembers⟩ := h.members
  obtain ⟨file', hfile', hclass⟩ := h.self.file_ne_empty hpath
  obtain rfl : file = file' := Option.some.inj (hfile.symm.trans hfile')
  rcases List.mem_cons.1 he with rfl | he
  · exact ⟨file, hfile, hclass⟩
  · obtain ⟨entry, htells⟩ := exists_of_forall₂ hmembers he
    exact htells.file_ne_empty hclass

deriving instance DecidableEq for ClassSource

/-! ### Reading a manifest -/

/-- A member below a class is what the fields of its entry give. -/
structure MemberRead (className : String) (file : Option String) (ancestors : List String)
    (entry : Value) (e : ElementSource) : Prop where
  name      : Manifest.name (fieldsOf entry) s!"member of \"{className}\"" = .ok e.target.name
  kind      : memberKind (fieldsOf entry) className e.target.name = .ok e.target.kind
  className : e.target.className = className
  file      : ∃ own, file? (fieldsOf entry) = .ok own ∧ e.target.file = own.or file
  line      : e.target.line = line? (fieldsOf entry)
  ancestors : e.target.ancestors = ancestors
  comment   : Manifest.comment (fieldsOf entry) = .ok e.comment

/-- A class is what the fields of its entry give, and its members are what those of the entries
below it give. -/
structure ClassRead (outer : Option String) (entry : Value) (s : ClassSource) : Prop where
  name    : Manifest.name (fieldsOf entry) "class" = .ok s.target.className
  file    : ∃ own, file? (fieldsOf entry) = .ok own ∧ s.target.file = own.or outer
  target  : s.target = .forClass s.target.className s.target.file (line? (fieldsOf entry))
    s.target.ancestors
  comment : Manifest.comment (fieldsOf entry) = .ok s.comment
  members : List.Forall₂ (MemberRead s.target.className s.target.file s.target.ancestors)
    (memberEntries entry) s.members

theorem memberSource_read {className : String} {file : Option String} {ancestors : List String}
    {entry : Value} {e : ElementSource}
    (h : memberSource className file ancestors entry = .ok e) :
    MemberRead className file ancestors entry e := by
  unfold memberSource at h
  split at h
  · obtain ⟨name, hname, h⟩ := exists_of_bind h
    obtain ⟨kind, hkind, h⟩ := exists_of_bind h
    obtain ⟨own, hown, h⟩ := exists_of_bind h
    obtain ⟨comment, hcomment, h⟩ := exists_of_bind h
    cases h
    exact ⟨hname, hkind, rfl, ⟨own, hown, rfl⟩, rfl, rfl, hcomment⟩
  · cases h

theorem members_read {className : String} {file : Option String} {ancestors : List String}
    {es : List ElementSource} (h : members fields className file ancestors = .ok es) :
    List.Forall₂ (MemberRead className file ancestors) (memberEntries (.map fields)) es := by
  unfold members at h
  rw [memberEntries, fieldsOf]
  dsimp only at h
  split at h
  · rename_i hbare
    cases h
    rw [items_of_isBare hbare]
    exact .nil
  · split at h
    · rename_i vs hvs
      rw [hvs]
      exact (forall₂_of_mapM h).imp fun _ _ => memberSource_read
    · cases h

theorem classSource_read {outer : Option String} {entry : Value} {s : ClassSource}
    (h : classSource outer entry = .ok s) : ClassRead outer entry s := by
  unfold classSource at h
  split at h
  · obtain ⟨className, hname, h⟩ := exists_of_bind h
    obtain ⟨own, hown, h⟩ := exists_of_bind h
    obtain ⟨ancestors, -, h⟩ := exists_of_bind h
    obtain ⟨members, hmembers, h⟩ := exists_of_bind h
    obtain ⟨comment, hcomment, h⟩ := exists_of_bind h
    cases h
    exact ⟨hname, ⟨own, hown, rfl⟩, rfl, hcomment, members_read hmembers⟩
  · cases h

/-- The classes of a manifest are what its entries give, one for each, in order. -/
theorem parse_read {outer : Option String} {ss : List ClassSource}
    (h : parse v outer = .ok ss) : List.Forall₂ (ClassRead outer) (entries v) ss := by
  unfold parse at h
  dsimp only at h
  split at h
  · rename_i vs hlisted
    have hentries : entries v = vs := by
      cases v <;> exact congrArg items hlisted
    rw [hentries]
    exact (forall₂_of_mapM h).imp fun _ _ => classSource_read
  · cases h

theorem MemberRead.tells {className outer : String} {ancestors : List String} {entry : Value}
    {e : ElementSource} (h : MemberRead className (some outer) ancestors entry e) :
    Tells outer entry e := by
  obtain ⟨own, hown, hfile⟩ := h.file
  exact ⟨⟨own, hown, by cases own <;> exact hfile⟩, h.line, h.comment⟩

theorem ClassRead.lists {path : String} {entry : Value} {s : ClassSource}
    (h : ClassRead (some path) entry s) : Lists path entry s := by
  obtain ⟨own, hown, hfile⟩ := h.file
  have hfile' : s.target.file = some (own.getD path) := by cases own <;> exact hfile
  have hmembers := h.members
  rw [hfile'] at hmembers
  exact ⟨h.name, ⟨⟨own, hown, hfile'⟩, congrArg Target.line h.target, h.comment⟩,
    ⟨_, hfile', hmembers.imp fun _ _ => MemberRead.tells⟩⟩

theorem parse_lists {path : String} {ss : List ClassSource} (h : parse v (some path) = .ok ss) :
    List.Forall₂ (Lists path) (entries v) ss :=
  (parse_read h).imp fun _ _ => ClassRead.lists

/-- The classes of a manifest that loads are those that the entries of its document list. -/
theorem load_lists {read : DocumentReader} {d : Disk} {p : Path} {ss : List ClassSource}
    (h : load read d p = .ok ss) :
    ∃ v, d.readDocument read p = .ok v ∧ List.Forall₂ (Lists p.text) (entries v) ss := by
  unfold load at h
  split at h
  · cases h
  · cases h
  · split at h
    · rename_i v hv
      exact ⟨v, hv, parse_lists h⟩
    · cases h

end Manifest

end DocDirective
