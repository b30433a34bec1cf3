import Mathlib.Data.List.Induction

/-!
# What a history leaves behind

A store is asked about things that happened earlier: the last event that wrote something, if no
event after it took that back. `Latest` says this of a list of events and of any two notions of
writing and of taking back.

## Main definitions

* `Latest`: something written by an event that no later event ended.

## Main results

* `latest_concat`: what one more event changes.
-/

namespace FlowEngine

variable {ε α : Type} {writes : ε → α → Prop} {ends : ε → Prop}

/-- The last event that wrote or ended anything wrote `a`. -/
def Latest (writes : ε → α → Prop) (ends : ε → Prop) (history : List ε) (a : α) : Prop :=
  ∃ before e after, history = before ++ e :: after ∧ writes e a ∧ ∀ later ∈ after, ¬ ends later

@[simp] theorem not_latest_nil (a : α) : ¬ Latest writes ends [] a := by
  rintro ⟨before, e, after, h, -⟩
  simp at h

/-- One more event writes something, ends what is left, or leaves it alone. -/
theorem latest_concat (history : List ε) (e : ε) (a : α) :
    Latest writes ends (history ++ [e]) a ↔
      writes e a ∨ ¬ ends e ∧ Latest writes ends history a := by
  constructor
  · rintro ⟨before, first, after, h, hw, hno⟩
    induction after using List.reverseRecOn with
    | nil =>
      obtain ⟨-, rfl⟩ := (List.append_singleton_inj).1 h
      exact .inl hw
    | append_singleton after last =>
      rw [← List.cons_append, ← List.append_assoc] at h
      obtain ⟨rfl, rfl⟩ := (List.append_singleton_inj).1 h
      exact .inr ⟨hno e (by simp), before, first, after, rfl, hw,
        fun later hl => hno later (by simp [hl])⟩
  · rintro (hw | ⟨he, before, first, after, rfl, hw, hno⟩)
    · exact ⟨history, e, [], rfl, hw, by simp⟩
    · refine ⟨before, first, after ++ [e], by simp, hw, fun later hl => ?_⟩
      rcases List.mem_append.1 hl with hl | hl
      · exact hno later hl
      · rwa [List.mem_singleton.1 hl]

end FlowEngine
