import DocDirective.Proofs.Invocation.Batch
import DocDirective.Proofs.Invocation.Ending
import DocDirective.Proofs.Text.Casing

/-!
# Proofs — Invocation — Keys

Two passes tell whether a key is declared.  The rule for accepted keys looks for it among the
declared keys in lower case, the conversion among the declared keys as they stand; the parameters
themselves hold keys in lower case only (`Parameters.Built.lowered`).  What the rule refuses, the
conversion misses as well, as far as it comes (`Reached`).  The converse holds but for the keys that
a declared key covers with its lower case only (`Kind.Shadows`): these the rule lets through and the
conversion misses, so that they cannot be bound in any spelling (`refuses_or_shadows`).  The two
passes agree on all parameters exactly where the lower case of every declared key is declared
(`passes_agree_iff`).
-/

namespace DocDirective

/-- Parameters put together by adding values and writing keys. -/
inductive Parameters.Built : Parameters → Prop
  | empty : Built .empty
  | add {p : Parameters} (h : Built p) (v : Value) : Built (p.add v)
  | set {p : Parameters} (h : Built p) (key : String) (v : Value) : Built (p.set key v)

/-- Whatever the spelling was in which they were written, the keys are in lower case. -/
theorem Parameters.Built.lowered {p : Parameters} (h : p.Built) :
    ∀ key ∈ p.keyed.keys, Text.lowered key = key := by
  induction h with
  | empty => exact fun _ hkey => nomatch hkey
  | add _ v ih => exact ih
  | set _ written v ih =>
    intro key hkey
    obtain hkey | rfl := Keyed.mem_keys_insert.1 hkey
    · exact ih key hkey
    · exact Text.lowered_lowered written

/-- The key is not declared, although a declared key has it for its lower case. -/
def Kind.Shadows (k : Kind) (key : String) : Prop :=
  key ∉ k.fields.keys ∧ ∃ declared ∈ k.fields.keys, Text.lowered declared = key

namespace Invocation

variable {k : Kind} {p : Parameters} {key : String}

/-- The rule for accepted keys, given the declared ones, complains of the key. -/
def Refuses (k : Kind) (p : Parameters) (key : String) : Prop :=
  Rule.unknownKey key
    ∈ (Check.run ⟨k.name, some p, none⟩ [] (.rule (.acceptedKeys k.fields.keys))).1

/-- The conversion complains of the key as one that is not declared. -/
def Misses (k : Kind) (p : Parameters) (key : String) : Prop :=
  Rule.unknownKey key ∈ (convert k.fields p.keyed.entries [] .empty).1

/-- The conversion comes to the key: it has not broken down by then. -/
def Reached (k : Kind) (p : Parameters) (key : String) : Prop :=
  key ∈ (reached k.fields p.keyed.entries).map (·.1)

theorem Reached.mem (h : Reached k p key) : key ∈ p.keyed.keys := by
  obtain ⟨e, he, rfl⟩ := List.mem_map.1 h
  exact List.mem_map.2 ⟨e, mem_of_reached he, rfl⟩

theorem reached_iff_of_steady (h : Steady k.fields p.keyed.entries) :
    Reached k p key ↔ key ∈ p.keyed.keys := by
  rw [Reached, reached_eq_self h]
  rfl

theorem refuses_iff :
    Refuses k p key ↔ key ∈ p.keyed.keys ∧ key ∉ k.fields.keys.map Text.lowered := by
  have hcheck : (Check.run ⟨k.name, some p, none⟩ [] (.rule (.acceptedKeys k.fields.keys))).1
      = (texts (Rule.keyComplaints k.fields.keys p)).foldl note [] :=
    congrArg Prod.fst (gather_eq (Rule.quiet_keyComplaints k.fields.keys) note [])
  rw [Refuses, hcheck, mem_foldl_note, Rule.mem_texts_keyComplaints]
  constructor
  · rintro (hnil | ⟨key', hin, hnot, heq⟩)
    · cases hnil
    · obtain rfl := Rule.unknownKey_injective heq
      exact ⟨hin, hnot⟩
  · rintro ⟨hin, hnot⟩
    exact .inr ⟨key, hin, hnot, rfl⟩

theorem misses_iff : Misses k p key ↔ Reached k p key ∧ key ∉ k.fields.keys := by
  rw [Misses, errors_convert, mem_foldl_note, List.mem_filterMap, exists_conversionText?_iff]
  exact or_iff_right List.not_mem_nil

/-- What the rule refuses is missed by a conversion that comes to it. -/
theorem Refuses.misses (hp : p.Built) (h : Refuses k p key) (hreached : Reached k p key) :
    Misses k p key := by
  obtain ⟨hin, hnot⟩ := refuses_iff.1 h
  refine misses_iff.2 ⟨hreached, fun hdeclared => hnot ?_⟩
  exact List.mem_map.2 ⟨key, hdeclared, hp.lowered key hin⟩

/-- What the rule lets through and the conversion misses are the shadowed keys. -/
theorem misses_not_refuses_iff :
    Misses k p key ∧ ¬Refuses k p key ↔ Reached k p key ∧ k.Shadows key := by
  rw [misses_iff, refuses_iff, Kind.Shadows, ← List.mem_map]
  constructor
  · rintro ⟨⟨hreached, hnot⟩, hrefused⟩
    refine ⟨hreached, hnot, ?_⟩
    by_contra hlower
    exact hrefused ⟨hreached.mem, hlower⟩
  · rintro ⟨hreached, hnot, hlower⟩
    exact ⟨⟨hreached, hnot⟩, fun hrefused => hrefused.2 hlower⟩

/-- An expansion with a key that the conversion misses binds nothing. -/
theorem unbegun_of_misses (h : Misses k p key) (t : Target) (d : Descriptor) :
    Processor.hasBegun ((new k p).expand t d).invocation.stage = false := by
  obtain ⟨hreached, hnot⟩ := misses_iff.1 h
  have hpasses : ¬(new k p).Passes t := by
    intro hpasses
    obtain ⟨e, he, rfl⟩ := List.mem_map.1 hreached.mem
    obtain ⟨q, hq, hdeclared⟩ := hpasses.declared
    obtain rfl := eq_of_parameters_new hq
    obtain ⟨f, w, hf, -⟩ := hdeclared e he
    exact hnot (Keyed.mem_keys_of_get? hf)
  have hending := ending_expand (i := new k p) rfl t d
  generalize (new k p).expand t d = e at hending ⊢
  cases hending with
  | misplaced _ _ hstage => simp [hstage, Processor.hasBegun]
  | interrupted _ _ hstage => simp [hstage, Processor.hasBegun]
  | rejected _ _ hstage => simp [hstage, Processor.hasBegun]
  | begun h _ _ _ => exact absurd h hpasses

/-- The two passes agree on all parameters, as far as the conversion comes, exactly where the lower
case of every declared key is declared as well. -/
theorem passes_agree_iff (k : Kind) :
    (∀ p : Parameters, p.Built → ∀ key, Reached k p key → (Refuses k p key ↔ Misses k p key))
      ↔ ∀ key ∈ k.fields.keys, Text.lowered key ∈ k.fields.keys := by
  constructor
  · intro hagree key hkey
    by_contra hnot
    -- a key that is not declared breaks nothing down
    have hunbroken : breakdown? k.fields (Text.lowered key, .null) = none := by
      rw [breakdown?, Keyed.get?_eq_none_iff.2 hnot]
      rfl
    have hreached : Reached k (Parameters.empty.set key .null) (Text.lowered key) := by
      refine (reached_iff_of_steady ?_).2 (Keyed.mem_keys_insert.2 (.inr rfl))
      exact List.forall_mem_singleton.2 hunbroken
    have hrefused := (hagree _ (.set .empty key .null) _ hreached).2
      (misses_iff.2 ⟨hreached, hnot⟩)
    exact (refuses_iff.1 hrefused).2 (List.mem_map.2 ⟨key, hkey, rfl⟩)
  · intro hclosed p hp key hreached
    refine ⟨fun hrefused => hrefused.misses hp hreached, fun hmissed => ?_⟩
    by_contra hrefused
    obtain ⟨-, hnot, declared, hdeclared, rfl⟩ := misses_not_refuses_iff.1 ⟨hmissed, hrefused⟩
    exact hnot (hclosed declared hdeclared)

/-- **What the two passes make of a key.**  Whatever the declared keys are, every key that the rule
for accepted keys refuses and the conversion comes to is missed by it, and the keys that are only
missed are those that are shadowed; the two agree on all parameters exactly where the lower case of
every declared key is declared.  A conversion that does not break down comes to every key.  With a
key that is missed, nothing is bound. -/
theorem refuses_or_shadows (k : Kind) :
    (∀ p : Parameters, p.Built → ∀ key,
        (Refuses k p key → Reached k p key → Misses k p key)
          ∧ (Misses k p key ∧ ¬Refuses k p key ↔ Reached k p key ∧ k.Shadows key))
      ∧ ((∀ p : Parameters, p.Built → ∀ key, Reached k p key → (Refuses k p key ↔ Misses k p key))
        ↔ ∀ key ∈ k.fields.keys, Text.lowered key ∈ k.fields.keys)
      ∧ (∀ p : Parameters, Steady k.fields p.keyed.entries →
        ∀ key, Reached k p key ↔ key ∈ p.keyed.keys)
      ∧ ∀ p key, Misses k p key → ∀ t d,
        Processor.hasBegun ((new k p).expand t d).invocation.stage = false := by
  refine ⟨fun p hp key => ?_, passes_agree_iff k, fun p hsteady key => ?_,
    fun p key hmissed t d => ?_⟩
  · exact ⟨Refuses.misses hp, misses_not_refuses_iff⟩
  · exact reached_iff_of_steady hsteady
  · exact unbegun_of_misses hmissed t d

/-- A limit whose key is declared with a capital. -/
def capitalKind : Kind :=
  { limitKind with
    fields := .ofList [("Max", limitField)]
    checks := [.rule (.acceptedKeys ["Max"])] }

/-- The key is shadowed however it is written: the kind accepts it and never binds it. -/
theorem refuses_or_shadows_capital :
    let p := Parameters.empty.set "Max" (.int 3)
    p.Built ∧ Misses capitalKind p "max" ∧ ¬Refuses capitalKind p "max"
      ∧ Processor.hasBegun ((new capitalKind p).expand (limitTarget .ofClass)
        { className := "User" }).invocation.stage = false := by
  intro p
  obtain ⟨hpasses, -, hsteady, hunbegun⟩ := refuses_or_shadows capitalKind
  have hp : p.Built := .set .empty "Max" (.int 3)
  have hshadows : capitalKind.Shadows "max" := ⟨by decide, "Max", by decide, by decide⟩
  have hreached : Reached capitalKind p "max" :=
    (hsteady p (List.forall_mem_singleton.2 rfl) "max").2 (by decide)
  obtain ⟨hmisses, hrefuses⟩ := (hpasses p hp "max").2.2 ⟨hreached, hshadows⟩
  exact ⟨hp, hmisses, hrefuses, hunbegun p "max" hmisses _ _⟩

end Invocation

end DocDirective
