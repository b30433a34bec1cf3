import Mathlib.Data.List.Forall2

/-!
# What results are like

Where something may fail, what is known is often known of results only: whatever is read from a document,
if it can be read, and whatever a node makes of its input, if it passes its checks. Such facts are put
together along the steps of a computation.

## Main definitions

* `Gives`: all results satisfy a predicate.

## Main results

* `Gives.bind`, `Gives.skip`, `Gives.map`: one step after another.
* `Gives.mapM`, `Gives.mapM_all`: one step for each item of a list.
-/

namespace FlowEngine

variable {α β ε : Type}

/-- Whatever is given satisfies `p`. -/
def Gives (r : Except ε α) (p : α → Prop) : Prop := ∀ a, r = .ok a → p a

namespace Gives

variable {r : Except ε α} {p q : α → Prop} {a : α}

theorem of_ok (h : p a) : Gives (.ok a : Except ε α) p := by
  rintro _ ⟨⟩
  exact h

theorem of_error (e : ε) : Gives (.error e) p := nofun

theorem imp (h : Gives r p) (hpq : ∀ a, p a → q a) : Gives r q := fun a ha => hpq a (h a ha)

/-- One step after another. -/
theorem bind {next : α → Except ε β} {q : β → Prop} (h : Gives r p) (hnext : ∀ a, p a → Gives (next a) q) :
    Gives (r >>= next) q := by
  cases r with
  | error e => exact of_error e
  | ok a => exact hnext a (h a rfl)

/-- A step that decides nothing about the result. -/
theorem skip {next : α → Except ε β} {q : β → Prop} (hnext : ∀ a, Gives (next a) q) :
    Gives (r >>= next) q :=
  bind (p := fun _ => True) (fun _ _ => trivial) fun a _ => hnext a

theorem map {f : α → β} {q : β → Prop} (h : Gives r fun a => q (f a)) : Gives (r.map f) q := by
  cases r with
  | error e => exact of_error e
  | ok a => exact of_ok (h a rfl)

theorem mapError {ε' : Type} {f : ε → ε'} (h : Gives r p) : Gives (r.mapError f) p := by
  cases r with
  | error e => exact of_error _
  | ok a => exact of_ok (h a rfl)

/-- One step for each item. -/
theorem mapM {f : α → Except ε β} {q : α → β → Prop} {items : List α} (h : ∀ a ∈ items, Gives (f a) (q a)) :
    Gives (items.mapM f) (List.Forall₂ q items) := by
  induction items with
  | nil => exact of_ok .nil
  | cons a items ih =>
    rw [List.forall_mem_cons] at h
    rw [List.mapM_cons]
    exact bind h.1 fun b hb => bind (ih h.2) fun bs hbs => of_ok (.cons hb hbs)

/-- One step for each item, with the same known of all results. -/
theorem mapM_all {f : α → Except ε β} {q : β → Prop} {items : List α} (h : ∀ a ∈ items, Gives (f a) q) :
    Gives (items.mapM f) fun bs => ∀ b ∈ bs, q b := by
  refine (mapM (q := fun _ b => q b) h).imp fun bs hbs => ?_
  clear h
  induction hbs with
  | nil => exact List.forall_mem_nil q
  | cons hb _ ih => exact List.forall_mem_cons.mpr ⟨hb, ih⟩

end Gives

end FlowEngine
