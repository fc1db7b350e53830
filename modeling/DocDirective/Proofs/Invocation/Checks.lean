import DocDirective.Invocation
import DocDirective.Proofs.Kind.Rule
import DocDirective.Proofs.Keyed
import Mathlib.Data.List.Nodup
import Mathlib.Data.List.TakeWhile

/-!
# Proofs — Invocation — Checks

What the checks of an invocation collect.  Complaints are noted one after another, each the first
time it comes up; so rules and conversions leave the row of all complaints without its repetitions.
-/

namespace DocDirective

/-! ### Noting complaints -/

theorem note_ne_nil (es : List String) (c : String) : note es c ≠ [] := by
  unfold note
  split
  · exact List.ne_nil_of_mem ‹_›
  · simp

/-- Noting complaints one after another drops the repetitions. -/
theorem foldl_note (es cs : List String) : cs.foldl note es.eraseDups = (es ++ cs).eraseDups := by
  induction cs generalizing es with
  | nil => simp
  | cons c cs ih =>
    have hnote : note es.eraseDups c = (es ++ [c]).eraseDups := by
      rw [List.eraseDups_append]
      by_cases hc : c ∈ es
      · simp [note, hc, List.removeAll]
      · simp [note, hc, List.removeAll, List.eraseDups_cons]
    rw [List.foldl_cons, hnote, ih, List.append_assoc, List.singleton_append]

theorem mem_note {es : List String} {c m : String} : m ∈ note es c ↔ m ∈ es ∨ m = c := by
  unfold note
  by_cases hc : c ∈ es
  · rw [if_pos hc]
    constructor
    · exact .inl
    · rintro (hm | rfl)
      · exact hm
      · exact hc
  · rw [if_neg hc, List.mem_append, List.mem_singleton]

theorem mem_foldl_note {es cs : List String} {m : String} :
    m ∈ cs.foldl note es ↔ m ∈ es ∨ m ∈ cs := by
  induction cs generalizing es with
  | nil => simp
  | cons c cs ih => rw [List.foldl_cons, ih, mem_note, List.mem_cons, or_assoc]

/-- Complaints that are all there already are not noted again. -/
theorem foldl_note_of_subset {es cs : List String} (h : cs ⊆ es) : cs.foldl note es = es := by
  induction cs with
  | nil => rfl
  | cons c cs ih =>
    rw [List.cons_subset] at h
    rw [List.foldl_cons, note, if_pos h.1, ih h.2]

theorem nodup_note {es : List String} (h : es.Nodup) (c : String) : (note es c).Nodup := by
  unfold note
  by_cases hc : c ∈ es
  · rwa [if_pos hc]
  · rw [if_neg hc]
    refine List.nodup_append.2 ⟨h, by simp, ?_⟩
    intro m hm d hd hmd
    rw [List.mem_singleton] at hd
    exact hc (hd ▸ hmd ▸ hm)

theorem nodup_foldl_note {es : List String} (h : es.Nodup) (cs : List String) :
    (cs.foldl note es).Nodup := by
  induction cs generalizing es with
  | nil => exact h
  | cons c cs ih => exact ih (nodup_note h c)

/-- The complaints that could be worded. -/
def texts (cs : Complaints) : List String := cs.filterMap Except.toOption

theorem texts_cons_ok (m : String) (cs : Complaints) : texts (.ok m :: cs) = m :: texts cs := rfl

theorem mem_texts {cs : Complaints} {m : String} : m ∈ texts cs ↔ .ok m ∈ cs := by
  rw [texts, List.mem_filterMap]
  constructor
  · rintro ⟨c, hc, hm⟩
    cases c with
    | error f => cases hm
    | ok m' =>
      cases hm
      exact hc
  · exact fun hm => ⟨_, hm, rfl⟩

theorem gather_eq {cs : Complaints} (hq : Quiet cs) (add : List String → String → List String)
    (es : List String) : gather add es cs = ((texts cs).foldl add es, none) := by
  induction cs generalizing es with
  | nil => rfl
  | cons c cs ih =>
    obtain ⟨m, rfl⟩ := hq c List.mem_cons_self
    rw [gather, ih (fun d hd => hq d (List.mem_cons_of_mem _ hd)), texts_cons_ok, List.foldl_cons]

/-- Only complaints that could all be worded are added without a fault. -/
theorem quiet_of_gather {add : List String → String → List String} {cs : Complaints}
    {es : List String} (h : (gather add es cs).2 = none) : Quiet cs := by
  induction cs generalizing es with
  | nil => exact fun _ hc => nomatch hc
  | cons c cs ih =>
    cases c with
    | error f => cases h
    | ok m => exact List.forall_mem_cons.2 ⟨⟨m, rfl⟩, ih h⟩

/-- The fault that ends a gathering is one of the complaints. -/
theorem mem_of_gather {add : List String → String → List String} {cs : Complaints}
    {es : List String} {f : Fault} (h : (gather add es cs).2 = some f) : .error f ∈ cs := by
  induction cs generalizing es with
  | nil => cases h
  | cons c cs ih =>
    cases c with
    | error g =>
      cases h
      exact List.mem_cons_self
    | ok m => exact List.mem_cons_of_mem _ (ih h)

theorem texts_eq_nil_iff {cs : Complaints} (hq : Quiet cs) : texts cs = [] ↔ cs = [] := by
  cases cs with
  | nil => simp [texts]
  | cons c cs =>
    obtain ⟨m, rfl⟩ := hq c List.mem_cons_self
    simp [texts_cons_ok]

/-- The complaints of rules, rule by rule. -/
def ruleTexts (s : Subject) (rules : List Rule) : List String :=
  rules.flatMap fun r => texts (r.complaints s)

namespace Check

/-- The complaints of a check. -/
def complaints (s : Subject) : Check → Complaints
  | .rule r   => r.complaints s
  | .own look => look s

/-- How a check adds a complaint. -/
def add : Check → List String → String → List String
  | .rule _ => note
  | .own _  => fun es m => es ++ [m]

theorem run_eq (s : Subject) (es : List String) (c : Check) :
    c.run s es = gather c.add es (c.complaints s) := by
  cases c <;> rfl

/-- Some complaints, and after them those of checks. -/
def noted (s : Subject) (es : List String) (checks : List Check) : List String :=
  checks.foldl (fun es c => (texts (c.complaints s)).foldl c.add es) es

theorem noted_cons (s : Subject) (es : List String) (c : Check) (checks : List Check) :
    noted s es (c :: checks) = noted s ((texts (c.complaints s)).foldl c.add es) checks :=
  rfl

/-- Checks that can word everything add all their complaints. -/
theorem runAll_eq {s : Subject} {checks : List Check}
    (hq : ∀ c ∈ checks, Quiet (c.complaints s)) (es : List String) :
    runAll s es checks = (noted s es checks, none) := by
  induction checks generalizing es with
  | nil => rfl
  | cons c checks ih =>
    rw [List.forall_mem_cons] at hq
    rw [runAll, run_eq, gather_eq hq.1]
    exact ih hq.2 _

theorem quiet_of_runAll {s : Subject} {es : List String} {checks : List Check}
    (h : (runAll s es checks).2 = none) : ∀ c ∈ checks, Quiet (c.complaints s) := by
  induction checks generalizing es with
  | nil => exact fun _ hc => nomatch hc
  | cons c checks ih =>
    rw [runAll] at h
    split at h
    · rename_i errors hrun
      rw [run_eq] at hrun
      exact List.forall_mem_cons.2 ⟨quiet_of_gather (congrArg Prod.snd hrun), ih h⟩
    · cases h

theorem exists_of_runAll {s : Subject} {es : List String} {checks : List Check} {f : Fault}
    (h : (runAll s es checks).2 = some f) : ∃ c ∈ checks, .error f ∈ c.complaints s := by
  induction checks generalizing es with
  | nil => cases h
  | cons c checks ih =>
    rw [runAll] at h
    split at h
    · obtain ⟨c', hc', hf⟩ := ih h
      exact ⟨c', List.mem_cons_of_mem _ hc', hf⟩
    · rename_i errors g hrun
      rw [run_eq] at hrun
      exact ⟨c, List.mem_cons_self, mem_of_gather ((congrArg Prod.snd hrun).trans h)⟩

/-- Rules note their complaints one after another. -/
theorem noted_eq_foldl (s : Subject) (es : List String) (rules : List Rule) :
    noted s es (rules.map .rule) = (ruleTexts s rules).foldl note es := by
  induction rules generalizing es with
  | nil => rfl
  | cons r rules ih =>
    rw [List.map_cons, noted_cons, ih, ruleTexts, ruleTexts, List.flatMap_cons, List.foldl_append]
    rfl

/-- Rules leave the row of all complaints without its repetitions. -/
theorem noted_rules (s : Subject) (es : List String) (rules : List Rule) :
    noted s es.eraseDups (rules.map .rule) = (es ++ ruleTexts s rules).eraseDups := by
  rw [noted_eq_foldl, foldl_note]

theorem foldl_eq_nil_iff {add : List String → String → List String}
    (hadd : ∀ es m, add es m ≠ []) {es ms : List String} :
    ms.foldl add es = [] ↔ es = [] ∧ ms = [] := by
  induction ms generalizing es with
  | nil => simp
  | cons m ms ih =>
    rw [List.foldl_cons, ih]
    exact iff_of_false (fun h => hadd es m h.1) (fun h => List.cons_ne_nil _ _ h.2)

theorem add_ne_nil (c : Check) (es : List String) (m : String) : c.add es m ≠ [] := by
  cases c with
  | rule r => exact note_ne_nil es m
  | own look => simp [add]

/-- Nothing is noted exactly where no check complains. -/
theorem noted_eq_nil_iff {s : Subject} {checks : List Check}
    (hq : ∀ c ∈ checks, Quiet (c.complaints s)) {es : List String} :
    noted s es checks = [] ↔ es = [] ∧ ∀ c ∈ checks, c.complaints s = [] := by
  induction checks generalizing es with
  | nil => simp [noted]
  | cons c checks ih =>
    rw [List.forall_mem_cons] at hq
    rw [noted_cons, ih hq.2, foldl_eq_nil_iff c.add_ne_nil, texts_eq_nil_iff hq.1,
      List.forall_mem_cons, and_assoc]

theorem foldl_add_own (look : Subject → Complaints) (es ms : List String) :
    ms.foldl (Check.own look).add es = es ++ ms := by
  induction ms generalizing es with
  | nil => rw [List.foldl_nil, List.append_nil]
  | cons m ms ih => rw [List.foldl_cons, ih, add, List.append_assoc, List.singleton_append]

theorem mem_foldl_add {c : Check} {es ms : List String} {m : String} :
    m ∈ ms.foldl c.add es ↔ m ∈ es ∨ m ∈ ms := by
  cases c with
  | rule r => exact mem_foldl_note
  | own look => rw [foldl_add_own, List.mem_append]

/-- What is noted was there, or is a complaint of a check. -/
theorem mem_noted {s : Subject} {es : List String} {checks : List Check} {m : String} :
    m ∈ noted s es checks ↔ m ∈ es ∨ ∃ c ∈ checks, m ∈ texts (c.complaints s) := by
  induction checks generalizing es with
  | nil => simp [noted]
  | cons c checks ih =>
    rw [noted_cons, ih, mem_foldl_add, or_assoc]
    simp

theorem nodup_noted_rules (s : Subject) {es : List String} (h : es.Nodup) (rules : List Rule) :
    (noted s es (rules.map .rule)).Nodup := by
  rw [noted_eq_foldl]
  exact nodup_foldl_note h _

/-- A look among rules leaves distinct complaints where it says nothing twice, and nothing that was
said in front of it. -/
theorem nodup_noted_look {s : Subject} {es : List String} {before after : List Rule}
    {look : Subject → Complaints} (h : es.Nodup) (hlook : (texts (look s)).Nodup)
    (hnew : (noted s es (before.map .rule)).Disjoint (texts (look s))) :
    (noted s es (before.map .rule ++ .own look :: after.map .rule)).Nodup := by
  have hsplit : noted s es (before.map .rule ++ .own look :: after.map .rule)
      = noted s (noted s es (before.map .rule) ++ texts (look s)) (after.map .rule) := by
    rw [noted, List.foldl_append, List.foldl_cons, foldl_add_own]
    rfl
  rw [hsplit]
  exact nodup_noted_rules s ((nodup_noted_rules s h before).append hlook hnew) after

end Check

namespace Invocation

/-! ### Conversion -/

/-- The complaint about a keyed value, if its key is not declared or its conversion turns it
down. -/
def conversionText? (fields : Keyed Field) (e : String × Value) : Option String :=
  match fields.get? e.1 with
  | none   => some (Rule.unknownKey e.1)
  | some f =>
    match f.convert.apply e.2 with
    | .ok _    => none
    | .error g => g.unfit?.map fun u => s!"The \"{e.1}\" parameter {u.message}."

/-- The slot of a keyed value and what the value is converted to. -/
def converted? (fields : Keyed Field) (e : String × Value) : Option (String × Value) :=
  (fields.get? e.1).bind fun f => (f.convert.apply e.2).toOption.map fun w => (f.slot, w)

/-- The fault that the conversion of a keyed value breaks down with, if it does. -/
def breakdown? (fields : Keyed Field) (e : String × Value) : Option Fault :=
  (fields.get? e.1).bind fun f =>
    match f.convert.apply e.2 with
    | .ok _    => none
    | .error g => if g.unfit?.isSome then none else some g

/-- No conversion of the keyed values breaks down. -/
def Steady (fields : Keyed Field) (es : List (String × Value)) : Prop :=
  ∀ e ∈ es, breakdown? fields e = none

section Convert

variable {fields : Keyed Field} {e : String × Value} {es : List (String × Value)}

/-- What becomes of one keyed value: its conversion breaks down, or its complaint is noted and what
it is converted to is kept, where there is such a thing. -/
theorem convert_cons (fields : Keyed Field) (e : String × Value) (es : List (String × Value))
    (errors : List String) (converted : Keyed Value) :
    convert fields (e :: es) errors converted = match breakdown? fields e with
      | some g => (errors, converted, some g)
      | none   => convert fields es ((conversionText? fields e).toList.foldl note errors)
        (converted.insertAll (converted? fields e).toList) := by
  obtain ⟨k, v⟩ := e
  rw [convert]
  unfold breakdown? conversionText? converted?
  cases hf : fields.get? k with
  | none => rfl
  | some f =>
    cases hv : f.convert.apply v with
    | ok w => simp [hv, Except.toOption, Keyed.insertAll]
    | error g => cases hg : g.unfit? <;> simp [hv, hg, Except.toOption, Keyed.insertAll]

/-- Conversions that do not break down note the complaints one after another, and keep all that
could be converted. -/
theorem convert_eq (h : Steady fields es) (errors : List String) (converted : Keyed Value) :
    convert fields es errors converted
      = ((es.filterMap (conversionText? fields)).foldl note errors,
        converted.insertAll (es.filterMap (converted? fields)), none) := by
  induction es generalizing errors converted with
  | nil => rfl
  | cons e es ih =>
    obtain ⟨he, hes⟩ := List.forall_mem_cons.1 h
    rw [convert_cons, he]
    simp only [ih hes, List.filterMap_eq_flatMap_toList, List.flatMap_cons, List.foldl_append,
      Keyed.insertAll_append]

/-- The fault of conversions is the first one that one of them breaks down with. -/
theorem fault_convert (fields : Keyed Field) (es : List (String × Value)) (errors : List String)
    (converted : Keyed Value) :
    (convert fields es errors converted).2.2 = es.findSome? (breakdown? fields) := by
  induction es generalizing errors converted with
  | nil => rfl
  | cons e es ih =>
    rw [convert_cons, List.findSome?_cons]
    cases breakdown? fields e with
    | none => exact ih _ _
    | some g => rfl

/-- The keyed values that conversions come to, all in front of the first that one breaks down on. -/
def reached (fields : Keyed Field) (es : List (String × Value)) : List (String × Value) :=
  es.takeWhile fun e => (breakdown? fields e).isNone

/-- Whether or not one of them breaks down, conversions note their complaints about all that they
come to. -/
theorem errors_convert (fields : Keyed Field) (es : List (String × Value)) (errors : List String)
    (converted : Keyed Value) :
    (convert fields es errors converted).1
      = ((reached fields es).filterMap (conversionText? fields)).foldl note errors := by
  induction es generalizing errors converted with
  | nil => rfl
  | cons e es ih =>
    rw [convert_cons, reached, List.takeWhile_cons]
    cases breakdown? fields e with
    | some g => rfl
    | none =>
      refine (ih _ _).trans ?_
      simp [reached, List.filterMap_eq_flatMap_toList, List.foldl_append]

theorem reached_eq_self (h : Steady fields es) : reached fields es = es :=
  List.takeWhile_eq_self_iff.2 fun e he => Option.isNone_iff_eq_none.2 (h e he)

theorem mem_of_reached (h : e ∈ reached fields es) : e ∈ es :=
  (List.takeWhile_sublist _).subset h

theorem steady_iff : Steady fields es ↔ es.findSome? (breakdown? fields) = none :=
  List.findSome?_eq_none_iff.symm

/-- A keyed value is declared and its conversion accepts it. -/
def Declared (fields : Keyed Field) (e : String × Value) : Prop :=
  ∃ f w, fields.get? e.1 = some f ∧ f.convert.apply e.2 = .ok w

theorem declared_iff : Declared fields e
    ↔ breakdown? fields e = none ∧ conversionText? fields e = none := by
  unfold conversionText? breakdown? Declared
  cases fields.get? e.1 with
  | none => simp
  | some f =>
    cases hv : f.convert.apply e.2 with
    | ok w => simp [hv]
    | error g => cases hg : g.unfit? <;> simp [hv, hg]

theorem steady_of_declared (h : ∀ e ∈ es, Declared fields e) : Steady fields es :=
  fun e he => (declared_iff.1 (h e he)).1

/-- Steady conversions complain of nothing exactly where everything is declared and accepted. -/
theorem conversionTexts_eq_nil_iff (h : Steady fields es) :
    es.filterMap (conversionText? fields) = [] ↔ ∀ e ∈ es, Declared fields e := by
  rw [List.filterMap_eq_nil_iff]
  exact forall₂_congr fun e he => by rw [declared_iff, and_iff_right (h e he)]

end Convert

end Invocation

end DocDirective
