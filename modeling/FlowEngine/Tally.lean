/-!
# Tallies

How much there is of each of finitely many levels, compared lexicographically: less of an early
level is less, however much more there is of later ones. Every descent through tallies ends, which
is why work that only ever leads to work at later levels comes to an end.

## Main definitions

* `Tally`: amounts of `n` levels, with its well-founded order.
* `Tally.ofCounts`: the tally of a function that counts.

## Main results

* `Tally.ofCounts_lt`: one thing less at a level is less, if nothing changes at earlier levels.
-/

namespace FlowEngine

/-- Amounts of `n` levels. -/
def Tally : Nat → Type
  | 0 => Unit
  | n + 1 => Nat × Tally n

namespace Tally

/-- Less of the first level at which two tallies differ. -/
protected def Lt : (n : Nat) → Tally n → Tally n → Prop
  | 0 => fun _ _ => False
  | n + 1 => Prod.Lex (· < ·) (Tally.Lt n)

theorem lt_wf : (n : Nat) → WellFounded (Tally.Lt n)
  | 0 => ⟨fun a => ⟨a, fun _ h => h.elim⟩⟩
  | n + 1 => (Prod.lex ⟨_, Nat.lt_wfRel.wf⟩ ⟨_, lt_wf n⟩).wf

instance (n : Nat) : WellFoundedRelation (Tally n) := ⟨Tally.Lt n, lt_wf n⟩

/-- The counts of `n` levels from level `k` on. -/
def ofCounts (count : Nat → Nat) : (n k : Nat) → Tally n
  | 0, _ => ()
  | n + 1, k => (count k, ofCounts count n (k + 1))

theorem ofCounts_lt {c d : Nat → Nat} {s : Nat} (earlier : ∀ t, t < s → c t = d t)
    (less : c s < d s) (n k : Nat) (hk : k ≤ s) (hs : s < k + n) :
    Tally.Lt n (ofCounts c n k) (ofCounts d n k) := by
  induction n generalizing k with
  | zero => omega
  | succ n ih =>
    by_cases h : k = s
    · subst h
      exact Prod.Lex.left _ _ less
    · rw [ofCounts, ofCounts, earlier k (by omega)]
      exact Prod.Lex.right _ (ih (k + 1) (by omega) (by omega))

end Tally

end FlowEngine
