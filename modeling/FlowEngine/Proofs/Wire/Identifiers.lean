import FlowEngine.Proofs.Wire.Scanned
import FlowEngine.Uuid
import Mathlib.Tactic.Ring

/-!
# Identifiers are read back

The text of an identifier has 36 characters: 32 digits in five groups with a hyphen between any two.
The reader first looks for a wrapper around the groups, which digits cannot be taken for, then makes
sure that the hyphens stand at their places, and reads the other characters as one number.

## Main results

* `Uuid.filter_hyphenate`: hyphens only separate the digits.
* `Uuid.ofText_text`: the text of an identifier is read back.
-/

namespace FlowEngine

namespace Uuid

/-! ## Digits -/

theorem hexDigits_succ (n value : Nat) :
    Text.hexDigits (n + 1) value = Nat.digitChar (value / 16 ^ n % 16) :: Text.hexDigits n value := by
  rw [Text.hexDigits, List.range_succ, List.reverse_append, List.map_append]
  rfl

/-- Reading goes on from the digits before, as the leading part of a number. -/
theorem foldlM_hexDigits (n value before : Nat) :
    (Text.hexDigits n value).foldlM (fun n c => (Text.hexValue? c).map fun d => 16 * n + d) before =
      some (before * 16 ^ n + value % 16 ^ n) := by
  induction n generalizing before with
  | zero => simp [Text.hexDigits, Nat.mod_one]
  | succ n ih =>
    have hstep : (16 * before + value / 16 ^ n % 16) * 16 ^ n + value % 16 ^ n =
        before * 16 ^ (n + 1) + value % 16 ^ (n + 1) := by
      rw [Nat.pow_succ, Nat.mod_mul]
      ring
    rw [hexDigits_succ, List.foldlM_cons, Text.hexValue?_digitChar (Nat.mod_lt _ (by decide))]
    change (Text.hexDigits n value).foldlM _ (16 * before + value / 16 ^ n % 16) = _
    rw [ih, hstep]

/-- The digits of a number are read as that number, as far as there are enough of them. -/
theorem hexValue?_hexDigits {n value : Nat} (h : value < 16 ^ n) :
    hexValue? (Text.hexDigits n value) = some value := by
  rw [hexValue?, foldlM_hexDigits, Nat.mod_eq_of_lt h, Nat.zero_mul, Nat.zero_add]

theorem ne_hyphen_of_mem_hexDigits {n value : Nat} {c : Char} (h : c ∈ Text.hexDigits n value) :
    c ≠ '-' := by
  have hne : ∀ d : Fin 16, Nat.digitChar d ≠ '-' := by decide
  obtain ⟨d, rfl⟩ := Text.exists_of_mem_hexDigits h
  exact hne d

/-! ## Groups -/

/-- Hyphens only separate the digits. -/
theorem filter_hyphenate {cs : List Char} (h : ∀ c ∈ cs, c ≠ '-') (lengths : List Nat) :
    (hyphenate lengths cs).filter (· ≠ '-') = cs.take lengths.sum := by
  have hkept {cs : List Char} (h : ∀ c ∈ cs, c ≠ '-') (n : Nat) :
      (cs.take n).filter (· ≠ '-') = cs.take n :=
    List.filter_eq_self.mpr fun c hc => decide_eq_true (h c (List.mem_of_mem_take hc))
  fun_induction hyphenate lengths cs with
  | case1 cs => rfl
  | case2 n cs => rw [hkept h, List.sum_singleton]
  | case3 n lengths cs hne ih =>
    rw [List.filter_append, hkept h, List.filter_cons_of_neg (by simp),
      ih fun c hc => h c (List.mem_of_mem_drop hc), List.sum_cons, List.take_add]

/-- The groups of an identifier are not wrapped. -/
theorem unwrap_hyphenate (value : Nat) :
    unwrap (hyphenate groups (Text.hexDigits 32 value)) =
      (hyphenate groups (Text.hexDigits 32 value), none) := by
  have hbrace : ∀ d : Fin 16, Nat.digitChar d ≠ '\x7b' := by decide
  have hurn : ∀ d : Fin 16, 'u' ≠ (Nat.digitChar d).toLower := by decide
  let first : Fin 16 := ⟨value / 16 ^ 31 % 16, Nat.mod_lt _ (by decide)⟩
  obtain ⟨cs, hcs⟩ : ∃ cs, hyphenate groups (Text.hexDigits 32 value) = Nat.digitChar first :: cs :=
    ⟨_, by rw [hexDigits_succ]; rfl⟩
  have hafter : after? urn (Nat.digitChar first :: cs) = none := by
    change (if 'u' = (Nat.digitChar first).toLower then _ else none) = none
    rw [if_neg (hurn first)]
  rw [hcs, unwrap]
  · rw [hafter]
  · intro rest heq
    exact absurd (List.cons.inj heq).1 (hbrace first)

/-- The text of an identifier is read back. -/
theorem ofText_text (id : Uuid) : ofText id.text = .ok id := by
  let n := id.bits.toNat
  let digits := Text.hexDigits 32 n
  have hdigits : (hyphenate groups digits).filter (· ≠ '-') = digits := by
    rw [filter_hyphenate fun c hc => ne_hyphen_of_mem_hexDigits hc]
    exact List.take_of_length_le (Nat.le_of_eq (Text.length_hexDigits 32 n))
  have hvalue : hexValue? digits = some n := hexValue?_hexDigits id.bits.isLt
  have hlength : (hyphenate groups digits).length = 36 := rfl
  have hhyphens : [8, 13, 18, 23].all fun i => (hyphenate groups digits)[i]? == some '-' := rfl
  have hgrouped : grouped? (hyphenate groups digits) = some n := by
    rw [grouped?, if_pos ⟨hlength, hhyphens⟩, hdigits]
    dsimp only
    rw [if_pos (Text.length_hexDigits 32 n), hvalue]
  rw [ofText, text, String.toList_ofList, unwrap_hyphenate]
  dsimp only
  rw [if_neg fun h => absurd (hlength.symm.trans h.1) (by decide), hgrouped]
  change Except.ok (ofNat n) = _
  rw [ofNat, BitVec.ofNat_toNat, BitVec.setWidth_eq]

end Uuid

end FlowEngine
