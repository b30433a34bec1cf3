import FlowEngine.Node.Definition
import FlowEngine.Proofs.Gives

/-!
# What outputs say

A node makes envelopes, and every envelope gets an identity and a time when it is issued. Which ones these
are depends on how much has been drawn from the supply before, so two executions never make the same
envelopes. But nothing that a node makes says anything about them. What an output says is a message for
every envelope, and statements about what nodes make of their input are mostly about these.

## Main definitions

* `Said`: what an output says.
* `NodeOutput.said`, `NodeOutput.envelopes`: what it says, and what it is made of.
* `Says`: work that leads to an output which says this, whatever it draws from the supply.

## Main results

* `Issuing.map_each`, `Issuing.mem_each`, `Issuing.forall₂_each`: many envelopes at once.
* `Says.bind`, `Says.unique`: checks that come first, and that nothing else is said.
-/

namespace FlowEngine

/-! ## Work on lists -/

namespace Issuing

variable {α β γ : Type} {f f' : α → Issuing β}

/-- What does not depend on the supply. -/
theorem map_each {g : β → γ} {h : α → γ} (hf : ∀ a supply, g (f a supply).1 = h a) (as : List α)
    (supply : Supply) : (each f as supply).1.map g = as.map h := by
  induction as generalizing supply with
  | nil => rfl
  | cons a as ih => exact congrArg₂ List.cons (hf a supply) (ih (f a supply).2)

theorem mem_each {as : List α} {supply : Supply} {b : β} (h : b ∈ (each f as supply).1) :
    ∃ a ∈ as, ∃ earlier, b = (f a earlier).1 := by
  induction as generalizing supply with
  | nil => cases h
  | cons a as ih =>
    rcases List.mem_cons.mp h with rfl | h
    · exact ⟨a, List.mem_cons_self, supply, rfl⟩
    · obtain ⟨a', ha', hb⟩ := ih h
      exact ⟨a', List.mem_cons_of_mem a ha', hb⟩

theorem forall₂_each {R : β → β → Prop} {as : List α}
    (h : ∀ a ∈ as, ∀ supply supply', R (f a supply).1 (f' a supply').1) (supply supply' : Supply) :
    List.Forall₂ R (each f as supply).1 (each f' as supply').1 := by
  induction as generalizing supply supply' with
  | nil => exact .nil
  | cons a as ih =>
    rw [List.forall_mem_cons] at h
    exact .cons (h.1 supply supply') (ih h.2 (f a supply).2 (f' a supply').2)

end Issuing

/-! ## Outputs -/

/-- What the envelopes of an output say. -/
inductive Said where
  | single (m : Message Value)
  | many (ms : List (Message Value))
  | pending

/-- What an output says. -/
def NodeOutput.said : NodeOutput → Said
  | .single e => .single e.toMessage
  | .many es => .many (es.map Envelope.toMessage)
  | .pending => .pending

/-- The envelopes that go on. -/
def NodeOutput.envelopes : NodeOutput → List (Envelope Value)
  | .single e => [e]
  | .many es => es
  | .pending => []

/-- Whatever is drawn from the supply, the output says this. -/
def Says (made : Except NodeError (Issuing NodeOutput)) (said : Except NodeError Said) : Prop :=
  ∀ supply, made.map (fun work => (work supply).1.said) = said

section Says

variable {α : Type} {made : Except NodeError (Issuing NodeOutput)} {said said' : Except NodeError Said}

theorem says_ok {work : Issuing NodeOutput} {x : Said} (h : ∀ supply, (work supply).1.said = x) :
    Says (.ok work) (.ok x) :=
  fun supply => congrArg Except.ok (h supply)

theorem says_error (e : NodeError) : Says (.error e) (.error e) := fun _ => rfl

/-- A check comes first. -/
theorem Says.bind {check : Except NodeError α} {next : α → Except NodeError (Issuing NodeOutput)}
    {next' : α → Except NodeError Said} (h : ∀ a, Says (next a) (next' a)) :
    Says (check >>= next) (check >>= next') := by
  cases check with
  | error e => exact says_error e
  | ok a => exact h a

theorem Says.unique (h : Says made said) (h' : Says made said') : said = said' :=
  (h ⟨0, default⟩).symm.trans (h' ⟨0, default⟩)

end Says

end FlowEngine
