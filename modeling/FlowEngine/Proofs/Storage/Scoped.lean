import FlowEngine.Envelope
import FlowEngine.Proofs.Storage.Cells

/-!
# Variables as seen through envelopes

Through an envelope, variables of three scopes look alike, and they live in two places: those of the
run travel with the envelope, and the others are in the store. A variable of the run that was put into
the store shows through an envelope as long as the envelope has none of this name itself. None of this
can be told from the answers: they are those of independent cells, one for every scope and key, and a
write changes one cell or is refused.

Every envelope has its own cells of the run. What is derived from an envelope, or is a clone of it,
starts with their contents, and from then on either has a history of its own.

## Main definitions

* `VariableWrite`, `Envelope.write`, `Envelope.writeAll`: writing through an envelope.
* `VariableLaws`: what one envelope and one store do together.
* `Copying`, `Circulation`, `Circulation.step`: many envelopes in use with one store, and the ways to
  get further ones.

## Main results

* `Envelope.getVariable_writeAll`: reading after any writes through one envelope.
* `Circulation.exists_after`: what has become of an envelope among others.
* `variables_are_cells`: all of it.
-/

namespace FlowEngine

open VariableContext (Origin)

/-! ## The store -/

namespace VariableStore

/-- The store after a write to the partition that an origin names. -/
def written (store : VariableStore) (o : Origin) (scope : Scope) (key : String) (value : Value) :
    VariableStore :=
  store.replace scope (o.id scope) ((store.cells scope (o.id scope)).insert key value)

theorem flat_written (store : VariableStore) (o : Origin) (scope : Scope) (key : String)
    (value : Value) :
    (store.written o scope key value).flat =
      Function.update store.flat (o.cell scope key) (some value) :=
  store.flat_replace o scope key (Dict.get?_insert _ key value)

theorem set_context (store : VariableStore) (o : Origin) (scope : Scope) (key : String)
    (value : Value) :
    store.set o.context scope key value =
      if o.Names scope then .ok (store.written o scope key value)
      else .error (.missingContext scope scope.field) :=
  o.map_partition scope _

theorem get_context (store : VariableStore) (o : Origin) (scope : Scope) (key : String) :
    store.get o.context scope key =
      if o.Names scope then .ok (store.flat (o.cell scope key))
      else .error (.missingContext scope scope.field) :=
  o.map_partition scope _

end VariableStore

/-! ## One write -/

/-- A write of a variable. -/
structure VariableWrite where
  scope : Scope
  key : String
  value : Value

namespace VariableWrite

/-- A write through an envelope of this origin is accepted, and is to the variable. -/
def Hits (o : Origin) (scope : Scope) (key : String) (w : VariableWrite) : Prop :=
  o.Names w.scope ∧ w.scope = scope ∧ w.key = key

instance (o : Origin) (scope : Scope) (key : String) (w : VariableWrite) : Decidable (w.Hits o scope key) :=
  inferInstanceAs (Decidable (_ ∧ _))

/-- The last of some writes that is accepted and to the variable. -/
def last? (o : Origin) (scope : Scope) (key : String) (ws : List VariableWrite) : Option VariableWrite :=
  (ws.filter fun w => w.Hits o scope key).getLast?

theorem last?_concat (o : Origin) (scope : Scope) (key : String) (ws : List VariableWrite) (w : VariableWrite) :
    last? o scope key (ws ++ [w]) = if w.Hits o scope key then some w else last? o scope key ws := by
  rw [last?, last?, List.filter_append]
  by_cases h : w.Hits o scope key <;> simp [h]

end VariableWrite

namespace Envelope

variable {α : Type} (e : Envelope α) (store : VariableStore)

/-- What an envelope says about partitions. -/
def origin : Origin := .traced e.trace

/-- The variable that travels with an envelope. Only those of the run do. -/
def inline? (scope : Scope) (key : String) : Option Value :=
  if scope = .run then e.vars.get? key else none

/-- The envelope and the store after a write. A write that is refused changes nothing. -/
def write (w : VariableWrite) : Envelope α × VariableStore :=
  match e.setVariable store w.scope w.key w.value with
  | .ok (m, later) => ({ e with toMessage := m }, later)
  | .error _ => (e, store)

/-- The envelope and the store after writes, one after the other. -/
def writeAll (ws : List VariableWrite) : Envelope α × VariableStore :=
  ws.foldl (fun s w => s.1.write s.2 w) (e, store)

/-- What travels with the envelope comes first. -/
theorem getVariable_eq (scope : Scope) (key : String) :
    e.getVariable store scope key =
      (e.inline? scope key).elim (store.get e.origin.context scope key) fun value => .ok (some value) := by
  rw [Message.getVariable, inline?]
  cases (if scope = .run then e.vars.get? key else none) <;> rfl

variable {e store}

theorem setVariable_of_not_names {scope : Scope} (h : ¬ e.origin.Names scope) (key : String)
    (value : Value) :
    e.setVariable store scope key value = .error (.missingContext scope scope.field) := by
  cases scope with
  | global => exact absurd (.inl rfl) h
  | workflow =>
    have hset := store.set_context e.origin .workflow key value
    rw [if_neg h] at hset
    exact congrArg (·.map fun store => (e.toMessage, store)) hset
  | run =>
    have hempty : e.trace.runId = "" := Classical.not_not.mp fun hne => h (.inr hne)
    exact if_pos (String.isEmpty_iff.mpr hempty)

theorem setVariable_run (h : e.origin.Names .run) (key : String) (value : Value) :
    e.setVariable store .run key value = .ok ({ e.toMessage with vars := e.vars.insert key value }, store) := by
  have hne : e.trace.runId ≠ "" := h.resolve_left (by decide)
  exact if_neg fun hempty => hne (String.isEmpty_iff.mp hempty)

theorem setVariable_shared {scope : Scope} (h : e.origin.Names scope) (hscope : scope ≠ .run) (key : String)
    (value : Value) :
    e.setVariable store scope key value = .ok (e.toMessage, store.written e.origin scope key value) := by
  have hset := store.set_context e.origin scope key value
  rw [if_pos h] at hset
  cases scope with
  | run => exact absurd rfl hscope
  | global => exact congrArg (·.map fun store => (e.toMessage, store)) hset
  | workflow => exact congrArg (·.map fun store => (e.toMessage, store)) hset

theorem write_of_not_names {w : VariableWrite} (h : ¬ e.origin.Names w.scope) :
    e.write store w = (e, store) := by
  rw [write, setVariable_of_not_names h]

theorem write_run {w : VariableWrite} (hscope : w.scope = .run) (h : e.origin.Names w.scope) :
    e.write store w = ({ e with vars := e.vars.insert w.key w.value }, store) := by
  obtain ⟨scope, key, value⟩ := w
  subst hscope
  rw [write, setVariable_run h]

theorem write_shared {w : VariableWrite} (hscope : w.scope ≠ .run) (h : e.origin.Names w.scope) :
    e.write store w = (e, store.written e.origin w.scope w.key w.value) := by
  rw [write, setVariable_shared h hscope]

/-- A write leaves all of an envelope but the variables that travel with it. -/
theorem write_fst (w : VariableWrite) :
    (e.write store w).1 = { e with vars := (e.write store w).1.vars } := by
  by_cases h : e.origin.Names w.scope
  · by_cases hscope : w.scope = .run
    · rw [write_run hscope h]
    · rw [write_shared hscope h]
  · rw [write_of_not_names h]

/-- What travels with an envelope changes by accepted writes of variables of the run. -/
theorem get?_vars_write (w : VariableWrite) (key : String) :
    (e.write store w).1.vars.get? key =
      if w.Hits e.origin .run key then some w.value else e.vars.get? key := by
  by_cases h : e.origin.Names w.scope
  · by_cases hscope : w.scope = .run
    · rw [write_run hscope h]
      simp [VariableWrite.Hits, hscope, hscope ▸ h, Dict.get?_insert, eq_comm]
    · rw [write_shared hscope h, if_neg fun hhits => hscope hhits.2.1]
  · rw [write_of_not_names h, if_neg fun hhits => h hhits.1]

theorem origin_write (w : VariableWrite) : (e.write store w).1.origin = e.origin := by
  rw [write_fst]
  rfl

/-! ## Reading after writing -/

theorem inline?_insert (k : String) (value : Value) (scope : Scope) (key : String) :
    ({ e with vars := e.vars.insert k value } : Envelope α).inline? scope key =
      if .run = scope ∧ k = key then some value else e.inline? scope key := by
  by_cases hscope : .run = scope
  · subst hscope
    simp [inline?, Dict.get?_insert, eq_comm]
  · simp [inline?, hscope, Ne.symm hscope]

theorem get_written (o : Origin) {scope : Scope} (h : o.Names scope) (k : String) (value : Value)
    (scope' : Scope) (key : String) :
    (store.written o scope k value).get o.context scope' key =
      if scope = scope' ∧ k = key then .ok (some value) else store.get o.context scope' key := by
  rw [VariableStore.get_context, VariableStore.get_context, VariableStore.flat_written, Function.update_apply]
  by_cases hcell : scope = scope' ∧ k = key
  · obtain ⟨rfl, rfl⟩ := hcell
    simp [h]
  · have hne : ¬ o.cell scope' key = o.cell scope k := by
      rw [VariableContext.Origin.cell_eq_iff]
      rintro ⟨rfl, -, rfl⟩
      exact hcell ⟨rfl, rfl⟩
    rw [if_neg hne, if_neg hcell]

/-- **Reading after one write.** -/
theorem getVariable_write (w : VariableWrite) (scope : Scope) (key : String) :
    (e.write store w).1.getVariable (e.write store w).2 scope key =
      if w.Hits e.origin scope key then .ok (some w.value) else e.getVariable store scope key := by
  by_cases h : e.origin.Names w.scope
  · have hhits : w.Hits e.origin scope key ↔ w.scope = scope ∧ w.key = key := and_iff_right h
    simp only [hhits]
    by_cases hrun : w.scope = .run
    · rw [write_run hrun h, getVariable_eq, getVariable_eq, inline?_insert, ← hrun]
      split <;> rfl
    · -- a variable that does not travel is never hidden by one that does
      rw [write_shared hrun h, getVariable_eq, getVariable_eq, get_written _ h]
      by_cases hcell : w.scope = scope ∧ w.key = key
      · have hinline : e.inline? scope key = none := if_neg (hcell.1 ▸ hrun)
        rw [if_pos hcell, if_pos hcell, hinline]
        rfl
      · rw [if_neg hcell, if_neg hcell]
  · rw [write_of_not_names h, if_neg fun hhits => h hhits.1]

theorem writeAll_concat (ws : List VariableWrite) (w : VariableWrite) :
    e.writeAll store (ws ++ [w]) = (e.writeAll store ws).1.write (e.writeAll store ws).2 w := by
  rw [writeAll, List.foldl_append]
  rfl

theorem origin_writeAll (ws : List VariableWrite) : (e.writeAll store ws).1.origin = e.origin := by
  induction ws using List.reverseRecOn with
  | nil => rfl
  | append_singleton ws w ih => rw [writeAll_concat, origin_write, ih]

/-- **Reading after any writes.** -/
theorem getVariable_writeAll (ws : List VariableWrite) (scope : Scope) (key : String) :
    (e.writeAll store ws).1.getVariable (e.writeAll store ws).2 scope key =
      (VariableWrite.last? e.origin scope key ws).elim (e.getVariable store scope key)
        fun w => .ok (some w.value) := by
  induction ws using List.reverseRecOn with
  | nil => rfl
  | append_singleton ws w ih =>
    rw [writeAll_concat, getVariable_write, origin_writeAll, ih, VariableWrite.last?_concat]
    split <;> rfl

end Envelope

/-- What one envelope and one store do together. -/
structure VariableLaws {α : Type} (e : Envelope α) (store : VariableStore) : Prop where
  /-- A write is accepted if the scope is global or the trace has an identifier for it. -/
  accepted_iff : ∀ scope key value, (∃ after, e.setVariable store scope key value = .ok after) ↔
    (scope = .global ∨ e.origin.id scope ≠ "")
  /-- Otherwise it fails and changes nothing. -/
  refused : ∀ w : VariableWrite, ¬ e.origin.Names w.scope →
    e.setVariable store w.scope w.key w.value = .error (.missingContext w.scope w.scope.field) ∧
      e.write store w = (e, store)
  /-- A variable of the run changes what travels with the envelope, and nothing else. -/
  write_run : ∀ w : VariableWrite, e.origin.Names w.scope → w.scope = .run →
    e.write store w = ({ e with vars := e.vars.insert w.key w.value }, store)
  /-- Any other variable changes one cell of the store, and nothing else. -/
  write_shared : ∀ w : VariableWrite, e.origin.Names w.scope → w.scope ≠ .run →
    (e.write store w).1 = e ∧ (e.write store w).2.flat =
      Function.update store.flat (e.origin.cell w.scope w.key) (some w.value)
  /-- What travels with the envelope comes before what the store holds for its run. -/
  read_run : ∀ key, e.getVariable store .run key =
    (e.vars.get? key).elim (store.get (.ofTrace e.trace) .run key) fun value => .ok (some value)
  /-- Whatever is written, what is read is the last value that was accepted for this scope and key, or else
  what was read before. -/
  read_written : ∀ (ws : List VariableWrite) (scope : Scope) (key : String),
    (e.writeAll store ws).1.getVariable (e.writeAll store ws).2 scope key =
      (VariableWrite.last? e.origin scope key ws).elim (e.getVariable store scope key)
        fun w => .ok (some w.value)

theorem Envelope.variableLaws {α : Type} (e : Envelope α) (store : VariableStore) : VariableLaws e store where
  accepted_iff := by
    intro scope key value
    constructor
    · rintro ⟨after, h⟩
      by_contra hn
      rw [Envelope.setVariable_of_not_names hn] at h
      cases h
    · intro h
      by_cases hscope : scope = .run
      · subst hscope
        exact ⟨_, Envelope.setVariable_run h key value⟩
      · exact ⟨_, Envelope.setVariable_shared h hscope key value⟩
  refused := fun w h => ⟨Envelope.setVariable_of_not_names h _ _, Envelope.write_of_not_names h⟩
  write_run := fun w h hscope => Envelope.write_run hscope h
  write_shared := by
    intro w h hscope
    rw [Envelope.write_shared hscope h]
    exact ⟨rfl, store.flat_written _ _ _ _⟩
  read_run := fun key => e.getVariable_eq store .run key
  read_written := Envelope.getVariable_writeAll

/-! ## Many envelopes -/

/-- How an envelope is obtained from another one. -/
inductive Copying : Type 1 where
  | derive {β : Type} [HasDataType β] (data : β) (trace : Trace)
  | forward {β : Type} [HasDataType β] (nodeId : String) (data : β)
  | clone

/-- The new envelope, when it is issued. -/
def Copying.issue {α : Type} (e : Envelope α) : Copying → (β : Type) × Issuing (Envelope β)
  | @derive β _ data trace => ⟨β, e.derive data trace⟩
  | @forward β _ nodeId data => ⟨β, e.forward nodeId data⟩
  | clone => ⟨α, e.copy⟩

@[simp] theorem Copying.vars_issue {α : Type} (e : Envelope α) (c : Copying) (supply : Supply) :
    ((c.issue e).2 supply).1.vars = e.vars := by
  cases c <;> rfl

/-- Envelopes in use with one store, whatever their payloads. -/
structure Circulation : Type 1 where
  envelopes : List ((α : Type) × Envelope α)
  store : VariableStore
  supply : Supply

namespace Circulation

/-- What happens to one of the envelopes, or to the store. -/
inductive Event : Type 1 where
  | write (i : Nat) (w : VariableWrite)
  | copy (i : Nat) (c : Copying)
  | operate (operation : VariableStore.Operation)

/-- The envelopes and the store after an event. A new envelope comes last. -/
def step (d : Circulation) : Event → Circulation
  | .write i w =>
    match d.envelopes[i]? with
    | none => d
    | some ⟨α, e⟩ =>
      { d with envelopes := d.envelopes.set i ⟨α, (e.write d.store w).1⟩, store := (e.write d.store w).2 }
  | .copy i c =>
    match d.envelopes[i]? with
    | none => d
    | some ⟨_, e⟩ =>
      let (copy, supply) := (c.issue e).2 d.supply
      { d with envelopes := d.envelopes ++ [⟨_, copy⟩], supply }
  | .operate operation => { d with store := (d.store.execute operation).2 }

/-- The envelopes and the store after a history. -/
def after (d : Circulation) (history : List Event) : Circulation := history.foldl step d

theorem after_concat (d : Circulation) (history : List Event) (event : Event) :
    d.after (history ++ [event]) = (d.after history).step event := by
  rw [after, List.foldl_append]
  rfl

/-- The value that an event writes to a variable of the run through the envelope at a position. -/
def Event.own? (o : Origin) (i : Nat) (key : String) : Event → Option Value
  | .write j w => if j = i ∧ w.Hits o .run key then some w.value else none
  | .copy _ _ | .operate _ => none

/-- The last such value. -/
def lastOwn? (o : Origin) (i : Nat) (key : String) (history : List Event) : Option Value :=
  (history.filterMap (Event.own? o i key)).getLast?

theorem lastOwn?_concat (o : Origin) (i : Nat) (key : String) (history : List Event) (event : Event) :
    lastOwn? o i key (history ++ [event]) = (event.own? o i key).or (lastOwn? o i key history) := by
  rw [lastOwn?, List.filterMap_append, List.getLast?_append]
  cases hown : event.own? o i key with
  | none => rw [List.filterMap_cons_none hown, List.filterMap_nil, List.getLast?_nil, lastOwn?]
  | some value => rw [List.filterMap_cons_some hown, List.filterMap_nil, List.getLast?_singleton, lastOwn?]

/-- What an event makes of an envelope. -/
theorem exists_step {d : Circulation} {i : Nat} {α : Type} {e : Envelope α}
    (h : d.envelopes[i]? = some ⟨α, e⟩) (event : Event) :
    ∃ vars, (d.step event).envelopes[i]? = some ⟨α, { e with vars := vars }⟩ ∧
      ∀ key, vars.get? key = (event.own? e.origin i key).or (e.vars.get? key) := by
  cases event with
  | operate operation => exact ⟨e.vars, h, fun _ => rfl⟩
  | copy j c =>
    refine ⟨e.vars, ?_, fun _ => rfl⟩
    rw [step]
    cases hj : d.envelopes[j]? with
    | none => exact h
    | some source =>
      obtain ⟨hlt, -⟩ := List.getElem?_eq_some_iff.mp h
      exact (List.getElem?_append_left hlt).trans h
  | write j w =>
    by_cases hij : j = i
    · subst hij
      obtain ⟨hlt, -⟩ := List.getElem?_eq_some_iff.mp h
      refine ⟨(e.write d.store w).1.vars, ?_, fun key => ?_⟩
      · rw [step, h, ← Envelope.write_fst]
        exact List.getElem?_set_self hlt
      · rw [Envelope.get?_vars_write, Event.own?]
        by_cases hhits : w.Hits e.origin .run key
        · rw [if_pos hhits, if_pos ⟨rfl, hhits⟩]
          rfl
        · rw [if_neg hhits, if_neg fun hown => hhits hown.2]
          rfl
    · refine ⟨e.vars, ?_, fun key => ?_⟩
      · rw [step]
        cases hj : d.envelopes[j]? with
        | none => exact h
        | some target => exact (List.getElem?_set_ne hij).trans h
      · rw [Event.own?, if_neg fun hown => hij hown.1]
        rfl

/-- What a history makes of an envelope. -/
theorem exists_after {d : Circulation} {i : Nat} {α : Type} {e : Envelope α}
    (h : d.envelopes[i]? = some ⟨α, e⟩) (history : List Event) :
    ∃ vars, (d.after history).envelopes[i]? = some ⟨α, { e with vars := vars }⟩ ∧
      ∀ key, vars.get? key = (lastOwn? e.origin i key history).or (e.vars.get? key) := by
  induction history using List.reverseRecOn with
  | nil => exact ⟨e.vars, h, fun _ => rfl⟩
  | append_singleton history event ih =>
    obtain ⟨vars, hget, hvars⟩ := ih
    obtain ⟨vars', hget', hvars'⟩ := exists_step hget event
    refine ⟨vars', ?_, fun key => ?_⟩
    · rw [after_concat]
      exact hget'
    · rw [hvars', hvars, lastOwn?_concat, Option.or_assoc]
      rfl

/-- The new envelope that an event makes. -/
def copied (d : Circulation) {α : Type} (e : Envelope α) (c : Copying) : Envelope (c.issue e).1 :=
  ((c.issue e).2 d.supply).1

theorem getElem?_step_copy {d : Circulation} {i : Nat} {α : Type} {e : Envelope α}
    (h : d.envelopes[i]? = some ⟨α, e⟩) (c : Copying) :
    (d.step (.copy i c)).envelopes[d.envelopes.length]? = some ⟨_, d.copied e c⟩ := by
  rw [step, h]
  exact List.getElem?_concat_length

/-- What is read in the scope of the run through an envelope that a history began with: what was last
written through this envelope, else what travelled with it at the start, else what the store has. Nothing
else about the envelope has changed. -/
def ReadsOwn (d : Circulation) {α : Type} (i : Nat) (e : Envelope α) (history : List Event) : Prop :=
  ∃ vars, (d.after history).envelopes[i]? = some ⟨α, { e with vars := vars }⟩ ∧
    ∀ key, Message.getVariable { e.toMessage with vars := vars } (d.after history).store .run key =
      ((lastOwn? e.origin i key history).or (e.vars.get? key)).elim
        ((d.after history).store.get (.ofTrace e.trace) .run key) fun value => .ok (some value)

theorem readsOwn {d : Circulation} {i : Nat} {α : Type} {e : Envelope α}
    (h : d.envelopes[i]? = some ⟨α, e⟩) (history : List Event) : d.ReadsOwn i e history := by
  obtain ⟨vars, hget, hvars⟩ := exists_after h history
  refine ⟨vars, hget, fun key => ?_⟩
  rw [← hvars]
  exact Envelope.getVariable_eq { e with vars := vars } _ .run key

end Circulation

/-- **Variables are cells.** The laws hold of every envelope and store. What is derived or forwarded from
an envelope, or is a clone of it, reads what was written through it before, whatever its own trace
says. From then on each of the two reads its own writes of variables of the run, and never those of the
other or of any further envelope. -/
theorem variables_are_cells :
    (∀ (α : Type) (e : Envelope α) (store : VariableStore), VariableLaws e store) ∧
    (∀ (d : Circulation) (α : Type) (e : Envelope α) (w : VariableWrite) (c : Copying),
      w.scope = .run → e.trace.runId ≠ "" → ∀ store,
      (d.copied (e.write d.store w).1 c).getVariable store .run w.key = .ok (some w.value)) ∧
    ∀ (d : Circulation) (i : Nat) (α : Type) (e : Envelope α) (c : Copying)
      (history : List Circulation.Event), d.envelopes[i]? = some ⟨α, e⟩ →
      (d.copied e c).vars = e.vars ∧ (d.step (.copy i c)).ReadsOwn i e history ∧
        (d.step (.copy i c)).ReadsOwn d.envelopes.length (d.copied e c) history := by
  refine ⟨fun α e store => e.variableLaws store, ?_, ?_⟩
  · intro d α e w c hscope hrun store
    have hnames : e.origin.Names w.scope := .inr (hscope ▸ hrun)
    have hvars : (d.copied (e.write d.store w).1 c).vars = (e.write d.store w).1.vars :=
      Copying.vars_issue _ c d.supply
    have hvalue : (e.write d.store w).1.vars.get? w.key = some w.value := by
      rw [Envelope.get?_vars_write, if_pos ⟨hnames, hscope, rfl⟩]
    rw [Envelope.getVariable_eq, Envelope.inline?, if_pos rfl, hvars, hvalue]
    rfl
  · intro d i α e c history h
    refine ⟨Copying.vars_issue e c d.supply, ?_, Circulation.readsOwn (Circulation.getElem?_step_copy h c) history⟩
    -- the envelope that was copied is still as it was
    obtain ⟨hlt, -⟩ := List.getElem?_eq_some_iff.mp h
    refine Circulation.readsOwn ?_ history
    rw [Circulation.step, h]
    exact (List.getElem?_append_left hlt).trans h

/-- An envelope that has been given a variable of its run. -/
def Circulation.labelled : Circulation where
  envelopes := [⟨Value, { Message.new (.ofNat 1) (.start "agent" "run" "node") with
    id := .ofNat 0, issuedAt := default, vars := Dict.insert {} "label" (.string "first") }⟩]
  store := {}
  supply := ⟨1, default⟩

/-- The envelope is cloned, and then the variable is written once more. -/
theorem variables_are_cells_cloned :
    let later := (Circulation.labelled.step (.copy 0 .clone)).after
      [.write 0 ⟨.run, "label", .string "second"⟩]
    ∃ original copy : Envelope Value,
      later.envelopes[0]? = some ⟨Value, original⟩ ∧ later.envelopes[1]? = some ⟨Value, copy⟩ ∧
      original.getVariable later.store .run "label" = .ok (some (.string "second")) ∧
      copy.getVariable later.store .run "label" = .ok (some (.string "first")) := by
  intro later
  obtain ⟨-, ⟨_, horiginal, hread⟩, _, hcopy, hcopied⟩ := variables_are_cells.2.2
    Circulation.labelled 0 Value _ .clone [.write 0 ⟨.run, "label", .string "second"⟩] rfl
  exact ⟨_, _, horiginal, hcopy, (hread "label").trans rfl, (hcopied "label").trans rfl⟩

end FlowEngine
