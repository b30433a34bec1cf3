import FlowEngine.Registry
import Mathlib.Data.List.Induction
import Mathlib.Data.List.Nodup

/-!
# The catalog is decided by first registrations

Node types are registered one after the other, and an identifier may come up more than once. Only its
first registration counts: it is what the catalog answers from, whatever comes later, and the place of
the identifier in every list that the catalog gives. A later one is refused, and after it the catalog
is the same as if it had never been tried.

An entry keeps the identifier and the set of contracts that its registration had when it was added, next
to the registration itself. So what a type can do is told twice, by the set that was kept and by the
contracts themselves. The two agree, so a caller may ask for the set and rely on finding what it names.

## Main definitions

* `Registry.add`, `Registry.after`: the catalog after registrations, some of which may be refused.
* `Registry.first?`: the first registration of an identifier.
* `Registry.Truthful`: entries say what their registrations say.
* `Registry.Tells`: what the catalog says about an identifier.
* `Registry.offers`, `Registry.satisfies`: what the contracts, and the set of contracts, say that a
  type can do.

## Main results

* `Registry.truthful_after`: all entries of a catalog are truthful.
* `Registry.find?_after`, `Registry.types_after`: what the catalog holds.
* `Registry.Tells.offers_iff`: contracts and sets of contracts agree.
* `Registry.told_by_firsts`: the catalog is decided by first registrations.
-/

namespace FlowEngine

namespace Registry

/-! ## Registrations one after the other -/

/-- One more registration. If it is refused, the catalog stays as it is. -/
def add (r : Registry) (registration : Registration) : Registry :=
  match r.register registration with
  | .ok r => r
  | .error _ => r

/-- The catalog after a history of registrations. -/
def after (history : List Registration) : Registry := history.foldl add {}

/-- The first registration of an identifier. -/
def first? (history : List Registration) (typeId : String) : Option Registration :=
  history.find? fun registration => registration.typeId == typeId

variable {r : Registry} {history : List Registration} {registration : Registration}
  {typeId : String}

@[simp] theorem after_concat (history : List Registration) (registration : Registration) :
    after (history ++ [registration]) = (after history).add registration := by
  simp [after]

theorem after_append (history later : List Registration) :
    after (history ++ later) = later.foldl add (after history) :=
  List.foldl_append

theorem first?_append (history later : List Registration) (typeId : String) :
    first? (history ++ later) typeId = (first? history typeId).or (first? later typeId) :=
  List.find?_append

theorem isSome_first?_iff (history : List Registration) (typeId : String) :
    (first? history typeId).isSome ↔ typeId ∈ history.map Registration.typeId := by
  simp [first?, List.find?_isSome]

/-- An identifier is registered if it is on the list. -/
theorem isSome_find?_iff : (r.find? typeId).isSome ↔ typeId ∈ r.types := by
  simp [find?, types, List.find?_isSome]

/-- A type whose identifier is taken changes nothing. -/
theorem add_of_mem (h : registration.typeId ∈ r.types) : r.add registration = r := by
  rw [add, register, if_pos (isSome_find?_iff.mpr h)]

/-- A type with a new identifier is added at the end. -/
theorem add_of_not_mem (h : registration.typeId ∉ r.types) :
    r.add registration = ⟨r.entries ++ [registration.entry]⟩ := by
  rw [add, register, if_neg fun hsome => h (isSome_find?_iff.mp hsome)]

/-- What is found stays, and what is not found is found in the new registration or not at all. -/
theorem find?_add (r : Registry) (registration : Registration) (typeId : String) :
    (r.add registration).find? typeId =
      (r.find? typeId).or ((first? [registration] typeId).map Registration.entry) := by
  by_cases h : registration.typeId ∈ r.types
  · rw [add_of_mem h]
    by_cases hid : registration.typeId = typeId
    · rw [hid, ← isSome_find?_iff] at h
      rw [Option.or_of_isSome h]
    · rw [first?, List.find?_singleton, if_neg (by simpa using hid), Option.map_none, Option.or_none]
  · rw [add_of_not_mem h, find?, List.find?_append, first?, List.find?_singleton, List.find?_singleton,
      apply_ite (Option.map Registration.entry)]
    rfl

theorem types_add (r : Registry) (registration : Registration) :
    (r.add registration).types =
      if registration.typeId ∈ r.types then r.types else r.types ++ [registration.typeId] := by
  split
  · rename_i h
    rw [add_of_mem h]
  · rename_i h
    rw [add_of_not_mem h, types, List.map_append]
    rfl

/-- What the entries keep is what their registrations say. -/
def Truthful (r : Registry) : Prop :=
  ∀ e ∈ r.entries, e.typeId = e.registration.typeId ∧ e.capabilities = e.registration.capabilities

theorem Truthful.add (h : r.Truthful) (registration : Registration) : (r.add registration).Truthful := by
  by_cases hmem : registration.typeId ∈ r.types
  · rwa [add_of_mem hmem]
  · rw [add_of_not_mem hmem]
    exact List.forall_mem_append.mpr ⟨h, List.forall_mem_singleton.mpr ⟨rfl, rfl⟩⟩

/-- **Entries stay truthful**, whatever is registered. -/
theorem truthful_after (history : List Registration) : (after history).Truthful := by
  induction history using List.reverseRecOn with
  | nil => exact List.forall_mem_nil _
  | append_singleton history registration ih =>
    rw [after_concat]
    exact ih.add registration

/-- **The catalog finds first registrations.** -/
theorem find?_after (history : List Registration) (typeId : String) :
    (after history).find? typeId = (first? history typeId).map Registration.entry := by
  induction history using List.reverseRecOn with
  | nil => rfl
  | append_singleton history registration ih =>
    rw [after_concat, find?_add, ih, first?_append, Option.map_or]

/-- **The catalog lists identifiers** once each, in the order of their first registrations. -/
theorem types_after (history : List Registration) :
    (after history).types = (history.map Registration.typeId).eraseDups := by
  induction history using List.reverseRecOn with
  | nil => rfl
  | append_singleton history registration ih =>
    rw [after_concat, types_add, ih, List.map_append, List.eraseDups_append, List.map_singleton,
      List.removeAll]
    by_cases h : registration.typeId ∈ history.map Registration.typeId
    · rw [if_pos (List.mem_eraseDups.mpr h), List.filter_cons_of_neg (by simpa using h)]
      exact (List.append_nil _).symm
    · rw [if_neg fun hmem => h (List.mem_eraseDups.mp hmem),
        List.filter_cons_of_pos (by simpa using h)]
      rfl

/-- An identifier is listed if it has been registered. -/
theorem mem_types_after : typeId ∈ (after history).types ↔ typeId ∈ history.map Registration.typeId := by
  rw [types_after, List.mem_eraseDups]

theorem nodup_types_after (history : List Registration) : (after history).types.Nodup := by
  induction history using List.reverseRecOn with
  | nil => exact List.nodup_nil
  | append_singleton history registration ih =>
    rw [after_concat, types_add]
    split
    · exact ih
    · rename_i h
      exact ih.append (List.nodup_singleton _) (List.disjoint_singleton.mpr h)

/-! ## What the catalog tells -/

/-- What the catalog says about an identifier, given its registration, if there is one. -/
structure Tells (r : Registry) (typeId : String) (registration : Option Registration) : Prop where
  definition : r.definition typeId = registration.elim (.error (.unknownNodeType typeId))
    fun e => .ok e.definition
  capabilities : r.capabilities typeId = registration.elim (.error (.unknownNodeType typeId))
    fun e => .ok e.capabilities
  info : r.info? typeId = registration.map fun e => e.definition.info
  model : r.model? typeId = registration.bind Registration.model
  memory : r.memory? typeId = registration.bind Registration.memory
  tool : r.tool? typeId = registration.bind Registration.tool
  trigger : r.trigger? typeId = registration.bind Registration.trigger

/-- It says what it finds. -/
theorem Tells.of_find? {found : Option Registration}
    (h : r.find? typeId = found.map Registration.entry) : r.Tells typeId found := by
  constructor
  case definition =>
    rw [Registry.definition, require, h]
    cases found <;> rfl
  case capabilities =>
    rw [Registry.capabilities, require, h]
    cases found <;> rfl
  case info =>
    rw [info?, h, Option.map_map]
    rfl
  case model =>
    rw [model?, h, Option.bind_map]
    rfl
  case memory =>
    rw [memory?, h, Option.bind_map]
    rfl
  case tool =>
    rw [tool?, h, Option.bind_map]
    rfl
  case trigger =>
    rw [trigger?, h, Option.bind_map]
    rfl

theorem tells_after (history : List Registration) (typeId : String) :
    (after history).Tells typeId (first? history typeId) :=
  .of_find? (find?_after history typeId)

/-- The catalog has the contract of a type. Any type that is there can execute. -/
def offers (r : Registry) (typeId : String) : Capability → Bool
  | .action => (r.definition typeId).isOk
  | .model => (r.model? typeId).isSome
  | .memory => (r.memory? typeId).isSome
  | .tool => (r.tool? typeId).isSome
  | .trigger => (r.trigger? typeId).isSome

/-- The set of contracts of a type includes a set. -/
def satisfies (r : Registry) (typeId : String) (s : Capabilities) : Bool :=
  match r.capabilities typeId with
  | .ok capabilities => capabilities.contains s
  | .error _ => false

theorem Tells.satisfies_of_some (h : r.Tells typeId (some registration)) (s : Capabilities) :
    r.satisfies typeId s = registration.capabilities.contains s := by
  rw [satisfies, h.capabilities]
  rfl

theorem Tells.satisfies_of_none (h : r.Tells typeId none) (s : Capabilities) :
    r.satisfies typeId s = false := by
  rw [satisfies, h.capabilities]
  rfl

theorem contains_only_iff (s : Capabilities) (c : Capability) :
    s.contains (.only c) = true ↔ s.has c = true := by
  simp [Capabilities.contains_iff]

/-- **Contracts and sets of contracts agree.** -/
theorem Tells.offers_iff {found : Option Registration} (h : r.Tells typeId found) (c : Capability) :
    r.offers typeId c = true ↔ r.satisfies typeId (.only c) = true := by
  cases found with
  | none =>
    rw [h.satisfies_of_none]
    cases c <;> simp [offers, h.definition, h.model, h.memory, h.tool, h.trigger, Except.isOk,
      Except.toBool]
  | some registration =>
    rw [h.satisfies_of_some, contains_only_iff]
    cases c <;> simp [offers, h.definition, h.model, h.memory, h.tool, h.trigger, Except.isOk,
      Except.toBool, Registration.capabilities, Capabilities.has]

/-- An entry is what is found under its identifier, if no identifier is there twice. -/
theorem find?_of_mem (hnodup : r.types.Nodup) {e : Entry} (h : e ∈ r.entries) :
    r.find? e.typeId = some e := by
  obtain ⟨before, later, hentries⟩ := List.append_of_mem h
  have hbefore : before.find? (fun other => other.typeId == e.typeId) = none := by
    rw [types, hentries, List.map_append, List.map_cons] at hnodup
    refine List.find?_eq_none.mpr fun other hother heq => ?_
    refine (List.nodup_append.mp hnodup).2.2 _ (List.mem_map_of_mem hother) _ List.mem_cons_self ?_
    exact beq_iff_eq.mp heq
  rw [find?, hentries, List.find?_append, hbefore]
  simp

/-- Types are listed by what they can do in the order in which all are listed. -/
theorem withCapabilities_eq (hnodup : r.types.Nodup) (s : Capabilities) :
    r.withCapabilities s = r.types.filter fun typeId => r.satisfies typeId s := by
  rw [withCapabilities, types, List.filter_map]
  refine congrArg (List.map Entry.typeId) (List.filter_congr fun e he => ?_)
  rw [Function.comp_apply, satisfies, capabilities, require, find?_of_mem hnodup he]
  rfl

/-! ## The whole -/

/-- **The catalog is decided by first registrations.** After any history of registrations:

* the identifiers are listed once each, in the order of their first registrations;
* every entry keeps the identifier and the set of contracts that its registration has;
* a registration is refused exactly if its identifier has been registered, with an error that names it,
  and then it makes no difference to anything that comes later;
* about every identifier the catalog says what its first registration says, now and after any further
  registrations, and that it is unknown if there is none;
* a type has a contract exactly if its set of contracts includes it, and every type that is listed can
  execute;
* the types with given contracts are those on the list whose sets of contracts include them all. -/
theorem told_by_firsts (history : List Registration) :
    (after history).types = (history.map Registration.typeId).eraseDups ∧
      (∀ e ∈ (after history).entries,
        e.typeId = e.registration.typeId ∧ e.capabilities = e.registration.capabilities) ∧
      (∀ registration : Registration, (after history).register registration =
        if registration.typeId ∈ history.map Registration.typeId then
          .error (.duplicateNodeType registration.typeId)
        else .ok (after (history ++ [registration]))) ∧
      (∀ registration : Registration, registration.typeId ∈ history.map Registration.typeId →
        ∀ later, after (history ++ registration :: later) = after (history ++ later)) ∧
      (∀ typeId, (after history).Tells typeId (first? history typeId)) ∧
      (∀ typeId registration, first? history typeId = some registration →
        ∀ later, (after (history ++ later)).Tells typeId (some registration)) ∧
      (∀ typeId c, (after history).offers typeId c = true ↔
        (after history).satisfies typeId (.only c) = true) ∧
      (∀ typeId, typeId ∈ (after history).types ↔
        (after history).satisfies typeId (.only .action) = true) ∧
      ∀ s, (after history).withCapabilities s =
        (after history).types.filter fun typeId => (after history).satisfies typeId s := by
  refine ⟨types_after history, truthful_after history, fun registration => ?_,
    fun registration h later => ?_, tells_after history, fun typeId registration h later => ?_,
    fun typeId => (tells_after history typeId).offers_iff, fun typeId => ?_,
    withCapabilities_eq (nodup_types_after history)⟩
  · rw [register, after_concat]
    simp only [isSome_find?_iff, mem_types_after]
    split
    · rfl
    · rename_i h
      rw [add_of_not_mem fun hmem => h (mem_types_after.mp hmem)]
  · rw [after_append, after_append, List.foldl_cons, add_of_mem (mem_types_after.mpr h)]
  · have ht := tells_after (history ++ later) typeId
    rwa [first?_append, h, Option.some_or] at ht
  · rw [← (tells_after history typeId).offers_iff, offers, (tells_after history typeId).definition,
      mem_types_after, ← isSome_first?_iff]
    cases first? history typeId <;> rfl

end Registry

end FlowEngine
