import DocDirective.CommandLine.Run
import DocDirective.Proofs.Manifest.Listing
import DocDirective.Proofs.Value.Writing
import Mathlib.Algebra.Group.Int.Defs
import Mathlib.Order.Nat

/-!
# Proofs — Manifest — Contract

What reading a manifest can come to.  It lists classes or is refused for a reason that is foreseen,
but for two: ancestors that are a number or a truth value cannot be gone through, and whole numbers
with too many digits have no text, be they ancestors or files.  An entry strays if it comes to one
of these before anything else is wrong with it (`ClassStrays`); so does a manifest whose entries in
front of such a one are read (`Strays`), and no other (`parse_contract`).
-/

namespace DocDirective

/-- The failure is among those that manifests are refused with, and not one of the place or the
text of the file, of ancestors that cannot be gone through, or of a number without a text. -/
def ManifestError.Foreseen : ManifestError → Prop
  | .path _                => False
  | .read (.undecodable _) => False
  | .read (.broken _)      => False
  | .notIterable _         => False
  | .overlong _            => False
  | _                      => True

/-- The command line reports the failures that are foreseen, and no others. -/
theorem CommandLine.manifestFailure_eq_ok_iff {e : ManifestError} {o : Outcome} :
    manifestFailure e o = .ok o ↔ e.Foreseen := by
  unfold manifestFailure readFailure ManifestError.Foreseen
  rcases e with _ | _ | (_ | _ | _ | _ | _) | _ | _ | _ | _ | _ | _ | _ | _ | _ | _ | _ <;> simp

namespace Manifest

variable {fields : Fields} {className : String} {e : ManifestError} {v : Value}

/-! ### Fields -/

theorem foreseen_of_name {what : String} (h : name fields what = .error e) : e.Foreseen := by
  unfold name at h
  split at h
  · split at h
    · cases h
      trivial
    · cases h
  · cases h
    trivial

theorem foreseen_of_memberKind {n : String} (h : memberKind fields className n = .error e) :
    e.Foreseen := by
  unfold memberKind at h
  split at h
  · cases h
    trivial
  · split at h
    · cases h
      trivial
    · cases h
      trivial
    · cases h

theorem foreseen_of_comment (h : Manifest.comment fields = .error e) : e.Foreseen := by
  unfold Manifest.comment at h
  split at h
  · cases h
  · cases h
  · cases h
  · cases h
    trivial

theorem failsIf_plain (v : Value) : FailsIf (plain v) (.overlong .writing) v.HoldsOverlong := by
  have hplain := Value.failsIf_plain v
  unfold plain
  split
  · rename_i s hs
    exact (FailsIf.ok s).congr (iff_of_false id (hplain.not_of_ok hs))
  · rename_i o ho
    obtain ⟨rfl, h⟩ := hplain.of_error ho
    exact FailsIf.error.congr (iff_of_true trivial h)

/-- The file of an entry is a whole number with too many digits. -/
def FileOverlong (fields : Fields) : Prop :=
  ∃ n, Value.field? fields "file" = some (.int n) ∧ (Value.int n).HoldsOverlong

theorem failsIf_file? (fields : Fields) :
    FailsIf (file? fields) (.overlong .writing) (FileOverlong fields) := by
  have hused (w : Value) : FailsIf (plain w >>= fun s =>
      .ok (if Text.isBlankText s then none else some s)) (.overlong .writing) w.HoldsOverlong :=
    ((failsIf_plain w).bind fun _ => FailsIf.ok _).congr (or_iff_left id)
  unfold file? FileOverlong
  split
  · rename_i s hs
    exact (hused _).congr (by simp [hs, Value.not_holdsOverlong_text])
  · rename_i n hn
    exact (hused _).congr (by simp [hn])
  · rename_i b hb
    exact (hused _).congr (by simp [hb, Value.not_holdsOverlong_bool])
  · rename_i hint _
    refine (FailsIf.ok _).congr (iff_of_false id ?_)
    rintro ⟨n, hn, -⟩
    exact hint n hn

/-! ### Ancestors -/

/-- The value cannot be gone through: it is a number or a truth value, and not a bare one. -/
def isScalar : Value → Bool
  | .bool b  => !(Value.bool b).isBare
  | .int n   => !(Value.int n).isBare
  | .float x => !(Value.float x).isBare
  | _        => false

/-- What a value is gone through for if it is not a text: items, or keys. -/
def parts : Value → List Value
  | .list vs => vs
  | .map es  => es.map (·.1)
  | _        => []

/-- The ancestors as they are listed. -/
def listedAncestors (fields : Fields) : Value :=
  (Value.field? fields "ancestors").getD .null

theorem texts_of_isScalar (h : isScalar v = true) : texts v = .error (.notIterable v.typeName) := by
  cases v <;> simp_all [isScalar, texts]

theorem failsIf_texts (h : isScalar v = false) :
    FailsIf (texts v) (.overlong .writing) (∃ w ∈ parts v, w.HoldsOverlong) := by
  unfold texts
  split
  · rename_i hbare
    have hparts : parts v = [] := by
      cases v <;> simp_all [parts, Value.isBare]
    exact (FailsIf.ok _).congr (by simp [hparts])
  · rename_i hbare
    cases v with
    | list vs => exact FailsIf.mapM failsIf_plain
    | map es  =>
      exact (FailsIf.mapM fun e : Value × Value => failsIf_plain e.1).congr (by simp [parts])
    | text s  => exact (FailsIf.ok _).congr (by simp [parts])
    | _       => simp_all [isScalar, Value.isBare]

theorem ancestors_eq_error_iff : ancestors fields = .error e
    ↔ (isScalar (listedAncestors fields) = true
        ∧ e = .notIterable (listedAncestors fields).typeName)
      ∨ (e = .overlong .writing ∧ ∃ w ∈ parts (listedAncestors fields), w.HoldsOverlong) := by
  rw [ancestors, ← listedAncestors]
  generalize listedAncestors fields = v
  cases hscalar : isScalar v with
  | true =>
    have hparts : parts v = [] := by
      cases v <;> simp_all [parts, isScalar]
    simp [texts_of_isScalar hscalar, hparts, eq_comm]
  | false => simpa using failsIf_texts hscalar e

/-! ### Members -/

/-- A member strays: it has a name and a kind, and its file has no text. -/
structure MemberStrays (className : String) (entry : Value) : Prop where
  fields : ∃ m, entry = .map m
  name   : ∃ n, Manifest.name (fieldsOf entry) s!"member of \"{className}\"" = .ok n
    ∧ ∃ k, memberKind (fieldsOf entry) className n = .ok k
  file   : FileOverlong (fieldsOf entry)

theorem memberSource_eq_error_iff {file : Option String} {as : List String} {entry : Value}
    (he : ¬ e.Foreseen) : memberSource className file as entry = .error e
      ↔ e = .overlong .writing ∧ MemberStrays className entry := by
  constructor
  · intro h
    unfold memberSource at h
    split at h
    · obtain hname | ⟨n, hname, h⟩ := error_of_bind h
      · exact absurd (foreseen_of_name hname) he
      obtain hkind | ⟨k, hkind, h⟩ := error_of_bind h
      · exact absurd (foreseen_of_memberKind hkind) he
      obtain hfile | ⟨own, -, h⟩ := error_of_bind h
      · obtain ⟨rfl, hlong⟩ := (failsIf_file? _).of_error hfile
        exact ⟨rfl, ⟨_, rfl⟩, ⟨n, hname, k, hkind⟩, hlong⟩
      obtain hcomment | ⟨comment, -, h⟩ := error_of_bind h
      · exact absurd (foreseen_of_comment hcomment) he
      · cases h
    · cases h
      exact absurd trivial he
  · rintro ⟨rfl, ⟨m, rfl⟩, ⟨n, hname, k, hkind⟩, hlong⟩
    have hfile : file? m = .error (.overlong .writing) := (failsIf_file? m _).2 ⟨rfl, hlong⟩
    simp only [memberSource, bind_eq_error_iff]
    exact .inr ⟨n, hname, .inr ⟨k, hkind, .inl hfile⟩⟩

theorem members_eq_error_iff {file : Option String} {as : List String} (he : ¬ e.Foreseen) :
    members fields className file as = .error e ↔ e = .overlong .writing
      ∧ ∃ before entry after, memberEntries (.map fields) = before ++ entry :: after
        ∧ (∀ b ∈ before, ∃ s, memberSource className file as b = .ok s)
        ∧ MemberStrays className entry := by
  rw [memberEntries, fieldsOf, members]
  generalize (Value.field? fields "members").getD .null = v
  split
  · rename_i hbare
    simp [items_of_isBare hbare]
  · cases v with
    | list vs =>
      dsimp only [items]
      rw [mapM_eq_error_iff]
      simp only [memberSource_eq_error_iff he]
      constructor
      · rintro ⟨before, entry, after, hvs, hbefore, rfl, hentry⟩
        exact ⟨rfl, before, entry, after, hvs, hbefore, hentry⟩
      · rintro ⟨rfl, before, entry, after, hvs, hbefore, hentry⟩
        exact ⟨before, entry, after, hvs, hbefore, rfl, hentry⟩
    | _ =>
      refine iff_of_false ?_ (by simp [items])
      intro h
      cases h
      exact he trivial

/-! ### Classes -/

/-- An entry of a class strays: everything in front of one of its fields is read, and the field
comes to a failure that is not foreseen. -/
inductive ClassStrays (outer : Option String) (fields : Fields) : ManifestError → Prop
  | file {className : String} (hname : name fields "class" = .ok className)
      (h : FileOverlong fields) : ClassStrays outer fields (.overlong .writing)
  | scalar {className : String} {own : Option String} (hname : name fields "class" = .ok className)
      (hfile : file? fields = .ok own) (h : isScalar (listedAncestors fields) = true) :
      ClassStrays outer fields (.notIterable (listedAncestors fields).typeName)
  | ancestor {className : String} {own : Option String}
      (hname : name fields "class" = .ok className) (hfile : file? fields = .ok own)
      {v : Value} (hv : v ∈ parts (listedAncestors fields)) (h : v.HoldsOverlong) :
      ClassStrays outer fields (.overlong .writing)
  | member {className : String} {own : Option String} {as : List String}
      (hname : name fields "class" = .ok className) (hfile : file? fields = .ok own)
      (has : ancestors fields = .ok as) {before after : List Value} {entry : Value}
      (hentries : memberEntries (.map fields) = before ++ entry :: after)
      (hbefore : ∀ b ∈ before, ∃ s, memberSource className (own.or outer) as b = .ok s)
      (h : MemberStrays className entry) : ClassStrays outer fields (.overlong .writing)

variable {outer : Option String}

theorem ClassStrays.not_foreseen (h : ClassStrays outer fields e) : ¬ e.Foreseen := by
  cases h <;> exact id

theorem classSource_eq_error_iff (he : ¬ e.Foreseen) :
    classSource outer v = .error e ↔ ∃ fields, v = .map fields ∧ ClassStrays outer fields e := by
  constructor
  · intro h
    unfold classSource at h
    split at h
    · refine ⟨_, rfl, ?_⟩
      obtain hname | ⟨c, hname, h⟩ := error_of_bind h
      · exact absurd (foreseen_of_name hname) he
      obtain hfile | ⟨own, hfile, h⟩ := error_of_bind h
      · obtain ⟨rfl, hlong⟩ := (failsIf_file? _).of_error hfile
        exact .file hname hlong
      obtain has | ⟨as, has, h⟩ := error_of_bind h
      · obtain ⟨hscalar, rfl⟩ | ⟨rfl, w, hw, hlong⟩ := ancestors_eq_error_iff.1 has
        · exact .scalar hname hfile hscalar
        · exact .ancestor hname hfile hw hlong
      obtain hmembers | ⟨members, -, h⟩ := error_of_bind h
      · obtain ⟨rfl, before, entry, after, hentries, hbefore, hentry⟩ :=
          (members_eq_error_iff he).1 hmembers
        exact .member hname hfile has hentries hbefore hentry
      obtain hcomment | ⟨comment, -, h⟩ := error_of_bind h
      · exact absurd (foreseen_of_comment hcomment) he
      · cases h
    · cases h
      exact absurd trivial he
  · rintro ⟨fields, rfl, h⟩
    simp only [classSource, bind_eq_error_iff]
    cases h with
    | file hname h =>
      exact .inr ⟨_, hname, .inl ((failsIf_file? _ _).2 ⟨rfl, h⟩)⟩
    | scalar hname hfile h =>
      exact .inr ⟨_, hname, .inr ⟨_, hfile, .inl (ancestors_eq_error_iff.2 (.inl ⟨h, rfl⟩))⟩⟩
    | ancestor hname hfile hv h =>
      have hancestors := ancestors_eq_error_iff.2 (.inr ⟨rfl, _, hv, h⟩)
      exact .inr ⟨_, hname, .inr ⟨_, hfile, .inl hancestors⟩⟩
    | member hname hfile has hentries hbefore h =>
      have hmembers := (members_eq_error_iff he).2 ⟨rfl, _, _, _, hentries, hbefore, h⟩
      exact .inr ⟨_, hname, .inr ⟨_, hfile, .inr ⟨_, has, .inl hmembers⟩⟩⟩

/-! ### Manifests -/

theorem items_of_not_list (h : ∀ vs, v = .list vs → False) : items v = [] := by
  cases v with
  | list vs => exact (h vs rfl).elim
  | _       => rfl

/-- A manifest strays: the entries in front of one that strays are read. -/
def Strays (outer : Option String) (v : Value) (e : ManifestError) : Prop :=
  ∃ before fields after, entries v = before ++ .map fields :: after
    ∧ (∀ b ∈ before, ∃ s, classSource outer b = .ok s) ∧ ClassStrays outer fields e

theorem Strays.not_foreseen (h : Strays outer v e) : ¬ e.Foreseen := by
  obtain ⟨_, _, _, _, _, hclass⟩ := h
  exact hclass.not_foreseen

theorem parse_eq_error_iff (he : ¬ e.Foreseen) : parse v outer = .error e ↔ Strays outer v e := by
  unfold parse Strays
  dsimp only
  split
  · rename_i vs hlisted
    have hentries : entries v = vs := by
      cases v <;> exact congrArg items hlisted
    rw [hentries, mapM_eq_error_iff]
    simp only [classSource_eq_error_iff he]
    constructor
    · rintro ⟨before, _, after, hvs, hbefore, fields, rfl, h⟩
      exact ⟨before, fields, after, hvs, hbefore, h⟩
    · rintro ⟨before, fields, after, hvs, hbefore, h⟩
      exact ⟨before, _, after, hvs, hbefore, fields, rfl, h⟩
  · rename_i hlisted
    have hentries : entries v = [] := by
      cases v <;> exact items_of_not_list hlisted
    refine iff_of_false ?_ (by simp [hentries])
    intro h
    cases h
    exact he trivial

/-- An entry has nothing to stray on: its ancestors can be gone through, and they, its file and
the files of its members have texts. -/
structure Tame (entry : Value) : Prop where
  file        : ¬ FileOverlong (fieldsOf entry)
  listed      : isScalar (listedAncestors (fieldsOf entry)) = false
  ancestors   : ∀ w ∈ parts (listedAncestors (fieldsOf entry)), ¬ w.HoldsOverlong
  memberFiles : ∀ m ∈ memberEntries entry, ¬ FileOverlong (fieldsOf m)

theorem Tame.not_classStrays (h : Tame (.map fields)) : ¬ ClassStrays outer fields e := by
  intro hstrays
  cases hstrays with
  | file _ hlong         => exact h.file hlong
  | scalar _ _ hscalar   => exact absurd (hscalar.symm.trans h.listed) (by decide)
  | ancestor _ _ hw hlong => exact h.ancestors _ hw hlong
  | member _ _ _ hentries _ hmember =>
    exact h.memberFiles _ (by simp [hentries]) hmember.file

/-- Reading a manifest keeps to its contract, to list classes or to be refused for a reason that is
foreseen, unless it strays; a failure that is not foreseen comes from an entry that strays, with
every entry in front of it read.  Tame entries do not stray. -/
theorem parse_contract (v : Value) (outer : Option String) :
    (((∃ ss, parse v outer = .ok ss) ∨ ∃ e, parse v outer = .error e ∧ e.Foreseen)
        ↔ ∀ e, ¬ Strays outer v e)
      ∧ (∀ e, ¬ e.Foreseen → (parse v outer = .error e ↔ Strays outer v e))
      ∧ ((∀ entry ∈ entries v, Tame entry) → ∀ e, ¬ Strays outer v e) := by
  refine ⟨⟨?_, ?_⟩, fun e => parse_eq_error_iff, ?_⟩
  · intro h e hstrays
    have herror := (parse_eq_error_iff hstrays.not_foreseen).2 hstrays
    obtain ⟨ss, hss⟩ | ⟨e', he', hforeseen⟩ := h
    · cases herror.symm.trans hss
    · cases herror.symm.trans he'
      exact hstrays.not_foreseen hforeseen
  · intro h
    cases hparse : parse v outer with
    | ok ss => exact .inl ⟨ss, rfl⟩
    | error e =>
      refine .inr ⟨e, rfl, ?_⟩
      by_contra he
      exact h e ((parse_eq_error_iff he).1 hparse)
  · rintro htame e ⟨before, fields, after, hentries, -, hclass⟩
    exact (htame (.map fields) (by simp [hentries])).not_classStrays hclass

/-- Ancestors that are a number, a file that has no text, and a class without either. -/
theorem parse_contract_numbers :
    parse (.list [.map [(.text "name", .text "A"), (.text "ancestors", .int 5)]]) none
        = .error (.notIterable "int")
      ∧ parse (.list [.map [(.text "name", .text "A"), (.text "file", .int (10 ^ Overlong.limit))]])
          none = .error (.overlong .writing)
      ∧ ∀ e,
        ¬ Strays none (.list [.map [(.text "name", .text "A"), (.text "file", .int 7)]]) e := by
  refine ⟨?_, ?_, ?_⟩
  · refine ((parse_contract _ _).2.1 _ id).2 ⟨[], _, [], rfl, nofun, ?_⟩
    exact .scalar rfl rfl rfl
  · refine ((parse_contract _ _).2.1 _ id).2 ⟨[], _, [], rfl, nofun, ?_⟩
    have hpow (k : Nat) : 10 ^ k ≤ (10 ^ k : Int).natAbs := by rw [Int.natAbs_pow]; rfl
    exact .file rfl ⟨_, rfl, Value.holdsOverlong_int_iff_le.2 (hpow _)⟩
  · refine (parse_contract _ _).2.2 fun entry hentry => ?_
    obtain rfl := List.mem_singleton.1 hentry
    refine ⟨?_, rfl, nofun, nofun⟩
    rintro ⟨n, hn, hlong⟩
    obtain rfl : 7 = n := by injection Option.some.inj hn
    exact absurd (Value.holdsOverlong_int_iff.1 hlong) (by decide)

end Manifest

end DocDirective
