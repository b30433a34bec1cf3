/-!
# Natural numbers as text

Digits, read and written. Reading takes one optional plus sign and refuses an empty digit sequence,
any other character, and numbers at or above a bound.

## Main definitions

* `Text.digitValue?`: what a decimal digit stands for.
* `Text.natural?`: a bounded natural number, if the whole text is one.
* `Text.word?`: a natural number that fits in 64 bits.

## Main results

* `Text.natural?_toString`: what is written is read back.
* `Text.toString_inj`: different numbers are written differently.
-/

namespace FlowEngine

namespace Text

/-- The value of an ASCII decimal digit. -/
def digitValue? (c : Char) : Option Nat :=
  if '0' ≤ c ∧ c ≤ '9' then some (c.toNat - 48) else none

/-- The number that a sequence of digits denotes, continuing from `value`. -/
def digits? (value : Nat) : List Char → Option Nat
  | [] => some value
  | c :: cs => (digitValue? c).bind fun d => digits? (10 * value + d) cs

/-- What follows a leading plus sign, or the whole text if there is none. -/
def withoutPlus : List Char → List Char
  | '+' :: cs => cs
  | cs => cs

/-- The number below `bound` that a nonempty sequence of digits denotes. -/
def bounded? (bound : Nat) (cs : List Char) : Option Nat :=
  if cs.isEmpty then none else (digits? 0 cs).filter (· < bound)

/-- The number below `bound` that a text denotes: digits after at most one plus sign. -/
def natural? (bound : Nat) (text : String) : Option Nat :=
  bounded? bound (withoutPlus text.toList)

/-- Natural numbers that fit in 64 bits. -/
def word? (text : String) : Option Nat := natural? UInt64.size text

theorem lt_of_natural? {bound n : Nat} {text : String} (h : natural? bound text = some n) :
    n < bound := by
  simp only [natural?, bounded?] at h
  split at h
  · contradiction
  · simpa using (Option.filter_eq_some_iff.1 h).2

theorem digitValue?_of_isDigit {c : Char} (h : c.isDigit) : digitValue? c = some (c.toNat - 48) := by
  simp only [Char.isDigit, Bool.and_eq_true, decide_eq_true_eq] at h
  exact if_pos h

theorem digitValue?_le {c : Char} {d : Nat} (h : digitValue? c = some d) : d ≤ 9 := by
  rw [digitValue?] at h
  split at h
  · rename_i hc
    obtain rfl := Option.some.inj h
    have hlast : c.toNat ≤ 57 := hc.2
    omega
  · cases h

theorem digits?_of_isDigit {cs : List Char} (h : ∀ c ∈ cs, c.isDigit) (value : Nat) :
    digits? value cs = some (Nat.ofDigitChars 10 cs value) := by
  induction cs generalizing value with
  | nil => rfl
  | cons c cs ih =>
    rw [digits?, digitValue?_of_isDigit (h c List.mem_cons_self), Nat.ofDigitChars_cons]
    exact ih (fun c hc => h c (List.mem_cons_of_mem _ hc)) _

theorem withoutPlus_of_isDigit {cs : List Char} (h : ∀ c ∈ cs, c.isDigit) : withoutPlus cs = cs := by
  match cs with
  | [] => rfl
  | c :: cs =>
    have hne : c ≠ '+' := by
      rintro rfl
      exact absurd (h '+' List.mem_cons_self) (by decide)
    unfold withoutPlus
    split
    · simp_all
    · rfl

theorem isDigit_toDigits {n : Nat} : ∀ c ∈ Nat.toDigits 10 n, c.isDigit :=
  fun _ hc => Nat.isDigit_of_mem_toDigits (by decide) (by decide) hc

/-- A number is written in digits. -/
theorem isDigit_toString (n : Nat) : ∀ c ∈ (toString n).toList, c.isDigit := by
  rw [Nat.toString_eq_repr, Nat.toList_repr]
  exact isDigit_toDigits

/-- What is written of a number is read back. -/
theorem natural?_toString {bound n : Nat} (h : n < bound) :
    natural? bound (toString n) = some n := by
  have hne : (Nat.toDigits 10 n).isEmpty = false := by simp
  simp only [natural?, Nat.toString_eq_repr, Nat.toList_repr, withoutPlus_of_isDigit isDigit_toDigits,
    bounded?, hne, digits?_of_isDigit isDigit_toDigits, Nat.ofDigitChars_ten_toDigits]
  simp [h]

/-- Different numbers are written differently. -/
theorem toString_inj {m n : Nat} : toString m = toString n ↔ m = n := by
  constructor
  · intro h
    have hm : natural? (m + n + 1) (toString m) = some m := natural?_toString (by omega)
    have hn : natural? (m + n + 1) (toString n) = some n := natural?_toString (by omega)
    exact Option.some.inj (hm.symm.trans (h ▸ hn))
  · rintro rfl
    rfl

/-- `n` hexadecimal digits of `value`, most significant first, in lower case. -/
def hexDigits (n value : Nat) : List Char :=
  (List.range n).reverse.map fun i => Nat.digitChar (value / Nat.pow 16 i % 16)

/-- The value of an ASCII hexadecimal digit of either case. -/
def hexValue? (c : Char) : Option Nat :=
  if '0' ≤ c ∧ c ≤ '9' then some (c.toNat - 48)
  else if 'a' ≤ c ∧ c ≤ 'f' then some (c.toNat - 87)
  else if 'A' ≤ c ∧ c ≤ 'F' then some (c.toNat - 55)
  else none

theorem hexValue?_digitChar {d : Nat} (h : d < 16) : hexValue? (Nat.digitChar d) = some d := by
  have hdigit : ∀ d : Fin 16, hexValue? (Nat.digitChar d) = some d.val := by decide
  exact hdigit ⟨d, h⟩

theorem length_hexDigits (n value : Nat) : (hexDigits n value).length = n := by
  rw [hexDigits, List.length_map, List.length_reverse, List.length_range]

theorem exists_of_mem_hexDigits {n value : Nat} {c : Char} (h : c ∈ hexDigits n value) :
    ∃ d : Fin 16, c = Nat.digitChar d := by
  obtain ⟨i, -, rfl⟩ := List.mem_map.mp h
  exact ⟨⟨value / Nat.pow 16 i % 16, Nat.mod_lt _ (by decide)⟩, rfl⟩

/-- `n` in decimal, with zeros in front up to `width` digits. -/
def padded (width n : Nat) : String :=
  let digits := (toString n).toList
  String.ofList (List.replicate (width - digits.length) '0' ++ digits)

end Text

end FlowEngine
