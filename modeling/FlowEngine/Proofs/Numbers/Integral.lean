import FlowEngine.Json.Basic
import FlowEngine.Proofs.Numbers.Finite

/-!
# Integers as doubles

A double has a mantissa of 53 bits, so an integer that needs more is rounded when it becomes one. It is
rounded to the nearest multiple of the unit in the last place of such a mantissa, and this multiple is
the integer that the double is. The other way round nothing is lost: a double that is an integer is the
double that this integer becomes.

## Main definitions

* `Binary.lastPlace`: the unit in the last place.
* `Binary.Rounded`: an integer and the nearest one that is a double.

## Main results

* `Binary.Rounded.eq_of_dvd`, `Binary.Rounded.eq_of_le`: integers that are not changed.
* `Binary.exists_rounded_whole`: integers of 64 bits are rounded to the nearest double.
* `Binary.beq_whole_of_int?`, `Binary.int?_whole_of_int?`: doubles that are integers are not changed.
-/

namespace FlowEngine

open Float.Model Float.Model.UnpackedFloat

namespace Binary

variable {x y : Float}

/-! ## The integer that a double is -/

/-- A magnitude with a sign. -/
def signed (s : Sign) (n : Nat) : Int :=
  match s with
  | .positive => n
  | .negative => -n

theorem exists_signed (n : Int) : ∃ s, n = signed s n.natAbs := by
  rcases n.natAbs_eq with h | h
  · exact ⟨.positive, h⟩
  · exact ⟨.negative, h⟩

theorem nat?_natCast (m k : Nat) : nat? ⟨m, k, false⟩ = some (m * 2 ^ k) :=
  if_pos (Int.natCast_nonneg k)

theorem nat?_mul_two_pow (n k : Nat) : nat? ⟨n * 2 ^ k, -k, false⟩ = some n := by
  rcases Nat.eq_zero_or_pos k with rfl | hk
  · rw [nat?, if_pos (by simp)]
    simp
  · have hneg : ¬ 0 ≤ -(k : Int) := by omega
    have hunit : Nat.pow 2 (-(-(k : Int))).toNat = 2 ^ k := by
      rw [Int.neg_neg, Int.toNat_natCast]
      rfl
    simp only [nat?, if_neg hneg, hunit, Nat.mul_mod_left, if_true, Nat.mul_div_cancel n (Nat.two_pow_pos k)]

theorem eq_mul_two_pow_of_nat? {m k n : Nat} (h : nat? ⟨m, -k, false⟩ = some n) :
    m = n * 2 ^ k := by
  rcases Nat.eq_zero_or_pos k with rfl | hk
  · rw [nat?, if_pos (by simp)] at h
    simpa using Option.some.inj h
  · have hneg : ¬ 0 ≤ -(k : Int) := by omega
    have hunit : Nat.pow 2 (-(-(k : Int))).toNat = 2 ^ k := by
      rw [Int.neg_neg, Int.toNat_natCast]
      rfl
    simp only [nat?, if_neg hneg, hunit] at h
    split at h
    · rename_i hrest
      rw [← Option.some.inj h, Nat.div_mul_cancel (Nat.dvd_of_mod_eq_zero hrest)]
    · cases h

theorem int?_of_finite {s m e hm} (hu : x.toModel.unpack = .finite s m e hm) :
    int? x = (nat? ⟨m, e, false⟩).map (signed s) := by
  obtain ⟨narrow, hparts, hsign⟩ := ofFloat?_of_finite hu
  have hnat : nat? ⟨m, e, narrow⟩ = nat? ⟨m, e, false⟩ := rfl
  rw [int?, hparts, Option.bind_some, hnat, ← hsign, sign]
  cases nat? ⟨m, e, false⟩ with
  | none => rfl
  | some n =>
    change some (if isNegative x then -(n : Int) else n) = _
    split <;> rfl

theorem int?_of_zero {s} (hu : x.toModel.unpack = .zero s) : int? x = some 0 := by
  have hzero : nat? ⟨0, -1074, false⟩ = some 0 := by
    rw [nat?, if_neg (by decide)]
    simp only [Nat.zero_mod, Nat.zero_div, if_true]
  rw [int?, ofFloat?_of_zero hu, Option.bind_some, hzero]
  change some (if isNegative x then -(0 : Int) else 0) = _
  split <;> rfl

theorem beq_of_unpack {s m e hm} (hx : x.toModel.unpack = .finite s m e hm)
    (hy : y.toModel.unpack = .finite s m e hm) : (x == y) = true := by
  have hcompare : (x == y) = UnpackedFloat.beq x.toModel.unpack y.toModel.unpack := rfl
  rw [hcompare, hx, hy, UnpackedFloat.beq]
  cases s <;> simp [UnpackedFloat.compare]

/-- A finite double equals itself. -/
theorem beq_self (h : isFinite x) : (x == x) = true := by
  rcases finite_cases h with ⟨s, hu⟩ | ⟨s, m, e, hm, hu⟩
  · have hbeq : (x == x) = UnpackedFloat.beq x.toModel.unpack x.toModel.unpack := rfl
    rw [hbeq, hu]
    rfl
  · exact beq_of_unpack hu hu

theorem unpack_neg {s m e hm} (hu : x.toModel.unpack = .finite s m e hm) (hlog : m.log2 = 52) :
    (-x).toModel.unpack = .finite (-s) m e hm := by
  obtain ⟨-, hle, hge, -⟩ := unpack_finite_bound hu
  have hneg : (-x).toModel = Float.Model.pack x.toModel.unpack.neg := rfl
  rw [hneg, hu]
  exact unpack_pack hlog hle hge

/-! ## Rounding integers -/

/-- The unit in the last place of a mantissa of 53 bits that starts with the leading bit of a number. -/
def lastPlace (n : Nat) : Nat := 2 ^ (n.log2 - 52)

/-- The nearest integer that is a double: a multiple of the unit in the last place, at most half of one
away. -/
structure Rounded (n m : Int) : Prop where
  dvd : (lastPlace n.natAbs : Int) ∣ m
  nearest : 2 * (m - n).natAbs ≤ lastPlace n.natAbs

/-- An integer that ends with zeros where a mantissa has no bits is a double itself. -/
theorem Rounded.eq_of_dvd {n m : Int} (h : Rounded n m) (hn : (lastPlace n.natAbs : Int) ∣ n) : m = n := by
  have hunit : 0 < lastPlace n.natAbs := Nat.two_pow_pos _
  have hdvd : lastPlace n.natAbs ∣ (m - n).natAbs := Int.ofNat_dvd_left.mp (Int.dvd_sub h.dvd hn)
  have hnear := h.nearest
  rcases Nat.eq_zero_or_pos (m - n).natAbs with hzero | hpos
  · omega
  · have := Nat.le_of_dvd hpos hdvd
    omega

theorem Rounded.neg {n m : Int} (h : Rounded n m) : Rounded (-n) (-m) := by
  refine ⟨?_, ?_⟩
  · rw [Int.natAbs_neg]
    exact Int.dvd_neg.mpr h.dvd
  · have hnear := h.nearest
    rw [Int.natAbs_neg]
    omega

theorem Rounded.eq_of_le {n m : Int} (h : Rounded n m) (hn : n.natAbs ≤ 2 ^ 53) : m = n := by
  rcases Nat.lt_or_eq_of_le hn with hlt | heq
  · have hlog : n.natAbs.log2 - 52 = 0 := by
      rcases Nat.eq_zero_or_pos n.natAbs with hzero | hpos
      · rw [hzero, Nat.log2_zero]
      · have := log2_lt_53 hpos hlt
        omega
    refine h.eq_of_dvd ?_
    rw [lastPlace, hlog]
    exact Int.one_dvd n
  · refine h.eq_of_dvd (Int.ofNat_dvd_left.mpr ?_)
    rw [heq]
    decide +kernel

/-- Carrying may lead to the next power of two, which loses nothing when it is shifted once more. -/
theorem carry {r : Nat} (hlow : 2 ^ 52 ≤ r) (hhigh : r ≤ 2 ^ 53) :
    r.log2 - 52 ≤ 1 ∧ r / 2 ^ (r.log2 - 52) * 2 ^ (r.log2 - 52) = r ∧
      (r / 2 ^ (r.log2 - 52)).log2 = 52 := by
  rcases Nat.lt_or_eq_of_le hhigh with hlt | rfl
  · have hlog : r.log2 = 52 := (Nat.log2_eq_iff (by omega)).mpr ⟨hlow, hlt⟩
    rw [hlog]
    simpa using hlog
  · have hhalf : 2 ^ 53 / 2 ^ (53 - 52) = 2 ^ 52 := rfl
    rw [Nat.log2_two_pow, hhalf]
    exact ⟨Nat.le_refl 1, rfl, Nat.log2_two_pow⟩

/-- A number with `j` bits too many is rounded to the nearest multiple of `2 ^ j`. -/
theorem exists_round_ofNat {n j : Nat} (hlog : n.log2 = 52 + j) :
    ∃ m k hm, roundWithAccuracy .binary64 .positive (n * 2 ^ 53) (-53) .exact =
        .finite .positive m (k : Nat) hm ∧ m.log2 = 52 ∧ k ≤ j + 1 ∧
      2 ^ j ∣ m * 2 ^ k ∧ 2 * (m * 2 ^ k) ≤ 2 * n + 2 ^ j ∧ 2 * n ≤ 2 * (m * 2 ^ k) + 2 ^ j := by
  have hpos : 0 < n := Nat.pos_of_ne_zero fun h => by
    rw [h, Nat.log2_zero] at hlog
    omega
  obtain ⟨k, k', r, hk, hk', hr, hround⟩ := exists_rounded .positive (n * 2 ^ 53) (-53) .exact
  rw [log2_mul_two_pow hpos, hlog] at hk
  obtain rfl : k = j + 53 := by omega
  obtain rfl : k' = r.log2 - 52 := by omega
  obtain ⟨hle, hge⟩ := roundedMantissa_shiftRight (n * 2 ^ 53) .exact (j + 53)
  obtain ⟨hnear, hnear'⟩ := roundedMantissa_nearest (n * 2 ^ 53) (j + 53)
  rw [← hr] at hle hge hnear hnear'
  have hunit : 2 ^ (j + 53) = 2 ^ j * 2 ^ 53 := Nat.pow_add ..
  have hfloor : 2 ^ 52 ≤ n / 2 ^ j ∧ n / 2 ^ j < 2 ^ 53 := by
    have hkept : (n / 2 ^ j).log2 = 52 := by
      rw [log2_div_two_pow (by omega)]
      omega
    exact (Nat.log2_eq_iff fun h => by rw [h, Nat.log2_zero] at hkept; omega).mp hkept
  rw [hunit, Nat.mul_div_mul_right _ _ (Nat.two_pow_pos 53)] at hle hge
  obtain ⟨hcarried, hwhole, hlog'⟩ := carry (r := r) (by omega) (by omega)
  have hne : r / 2 ^ (r.log2 - 52) ≠ 0 := fun h => by
    rw [h, Nat.log2_zero] at hlog'
    omega
  have hvalue : r / 2 ^ (r.log2 - 52) * 2 ^ (j + (r.log2 - 52)) = r * 2 ^ j := by
    rw [Nat.add_comm, Nat.pow_add, ← Nat.mul_assoc, hwhole]
  have hexponent : (-53 : Int) + (j + 53 : Nat) + (r.log2 - 52 : Nat) = (j + (r.log2 - 52) : Nat) := by omega
  simp only [hexponent] at hround
  refine ⟨_, j + (r.log2 - 52), Nat.pos_of_ne_zero hne, hround.trans (dif_neg hne), hlog', by omega, ?_⟩
  have hscale : r * (2 ^ j * 2 ^ 53) = r * 2 ^ j * 2 ^ 53 := (Nat.mul_assoc ..).symm
  rw [hvalue]
  rw [hunit, hscale] at hnear hnear'
  exact ⟨Nat.dvd_mul_left .., by omega, by omega⟩

/-- A natural number is a full mantissa with an exponent when it has become a double. -/
theorem exists_unpack_ofNat {n : Nat} (hpos : 0 < n) (h : n < UInt64.size) :
    ∃ m e hm r, (Float.ofNat n).toModel.unpack = .finite .positive m e hm ∧ m.log2 = 52 ∧
      nat? ⟨m, e, false⟩ = some r ∧ Rounded n r := by
  by_cases hsmall : n < 2 ^ 53
  · have hlog := log2_lt_53 hpos hsmall
    have hexponent : (n.log2 : Int) - 52 = -((52 - n.log2 : Nat) : Int) := by omega
    refine ⟨_, _, _, n, unpack_ofNat_of_lt hpos hsmall, ?_, ?_, ?_⟩
    · rw [log2_mul_two_pow hpos]
      omega
    · rw [hexponent]
      exact nat?_mul_two_pow n _
    · have hunit : lastPlace (n : Int).natAbs = 1 := by
        have hzero : n.log2 - 52 = 0 := by omega
        simp [lastPlace, hzero]
      refine ⟨?_, ?_⟩
      · rw [hunit]
        exact Int.one_dvd _
      · rw [Int.sub_self]
        exact Nat.zero_le _
  · have hlow : 53 ≤ n.log2 := (Nat.le_log2 hpos.ne').mpr (Nat.not_lt.mp hsmall)
    have hhigh : n.log2 < 64 := (Nat.log2_lt hpos.ne').mpr h
    obtain ⟨m, k, hm, hround, hlog, hk, hdvd, hle, hge⟩ :=
      exists_round_ofNat (n := n) (j := n.log2 - 52) (Nat.add_sub_cancel' (Nat.le_of_succ_le hlow)).symm
    refine ⟨m, k, hm, m * 2 ^ k, ?_, hlog, nat?_natCast m k, ?_⟩
    · rw [unpack_ofNat_of_le (Nat.not_lt.mp hsmall), hround, unpack_pack hlog]
      · omega
      · omega
    · refine ⟨Int.ofNat_dvd.mpr hdvd, ?_⟩
      rw [Int.natAbs_natCast, lastPlace]
      omega

theorem unpack_zero : (Float.ofNat 0).toModel.unpack = .zero .positive := by
  have hfield : field (Float.ofNat 0) = 0 := by decide +kernel
  have hfraction : fraction (Float.ofNat 0) = 0 := by decide +kernel
  have hsign : isNegative (Float.ofNat 0) = false := by decide +kernel
  rw [unpack_eq]
  simp only [hfield, hfraction, sign, hsign]
  rfl

/-- An integer becomes the double of its magnitude with its sign. -/
theorem unpack_whole {m e hm} {k : Nat} (hu : (Float.ofNat k).toModel.unpack = .finite .positive m e hm)
    (hlog : m.log2 = 52) (s : Sign) :
    (Json.Number.whole (signed s k)).toFloat.toModel.unpack = .finite s m e hm := by
  have hpos : 0 < k := by
    rcases Nat.eq_zero_or_pos k with rfl | hpos
    · rw [unpack_zero] at hu
      cases hu
    · exact hpos
  cases s with
  | positive =>
    have hnonneg : ¬ signed .positive k < 0 := Int.not_lt.mpr (Int.natCast_nonneg k)
    rw [Json.Number.toFloat, if_neg hnonneg]
    exact hu
  | negative =>
    have hneg : signed .negative k < 0 := Int.neg_neg_of_pos (Int.natCast_pos.mpr hpos)
    have hmagnitude : (signed .negative k).natAbs = k := Int.natAbs_neg k
    rw [Json.Number.toFloat, if_pos hneg, hmagnitude]
    exact unpack_neg hu hlog

/-- **Integers are rounded.** An integer of 64 bits that becomes a double is the nearest one that is a
double. -/
theorem exists_rounded_whole {n : Int} (h : n.natAbs < UInt64.size) :
    ∃ m, int? (Json.Number.whole n).toFloat = some m ∧ Rounded n m := by
  rcases Nat.eq_zero_or_pos n.natAbs with hzero | hpos
  · obtain rfl := Int.natAbs_eq_zero.mp hzero
    exact ⟨0, int?_of_zero unpack_zero, ⟨Int.dvd_zero _, Nat.zero_le _⟩⟩
  · obtain ⟨m, e, hm, r, hu, hlog, hr, hrounded⟩ := exists_unpack_ofNat hpos h
    obtain ⟨s, hs⟩ := exists_signed n
    have hwhole := unpack_whole hu hlog s
    rw [← hs] at hwhole
    refine ⟨signed s r, ?_, ?_⟩
    · rw [int?_of_finite hwhole, hr]
      rfl
    · rw [hs]
      cases s with
      | positive => exact hrounded
      | negative => exact hrounded.neg

/-! ## Doubles that are integers -/

/-- A natural number that has the parts of a double is that double. -/
theorem unpack_ofNat_of_nat? {s m e hm} (hu : x.toModel.unpack = .finite s m e hm) {n : Nat}
    (hn : nat? ⟨m, e, false⟩ = some n) :
    m.log2 = 52 ∧ (Float.ofNat n).toModel.unpack = .finite .positive m e hm := by
  obtain ⟨hlt, hle, hge, hnormal⟩ := unpack_finite_bound hu
  have hhidden : hidden = 2 ^ 52 := rfl
  have hhigh : m.log2 < 53 := log2_lt_53 hm (by omega)
  have hlow : hidden ≤ m → 52 ≤ m.log2 := fun h => (Nat.le_log2 hm.ne').mpr (hhidden ▸ h)
  rcases Int.lt_or_le 0 e with he | he
  · obtain ⟨k, rfl⟩ := Int.eq_ofNat_of_zero_le (Int.le_of_lt he)
    have hlog : m.log2 = 52 := by omega
    rw [nat?_natCast] at hn
    obtain rfl := Option.some.inj hn
    have hlarge : 2 ^ 53 ≤ m * 2 ^ k := by
      calc 2 ^ 53 = 2 ^ 52 * 2 ^ 1 := rfl
        _ ≤ m * 2 ^ k := Nat.mul_le_mul (by omega) (Nat.pow_le_pow_right (by decide) (by omega))
    exact ⟨hlog, unpack_ofNat_mul_two_pow hlog hm (by omega) hlarge⟩
  · obtain ⟨k, rfl⟩ := Int.exists_eq_neg_ofNat he
    obtain rfl := eq_mul_two_pow_of_nat? hn
    have hpos : 0 < n := Nat.pos_of_mul_pos_right hm
    have hlog : (n * 2 ^ k).log2 = n.log2 + k := log2_mul_two_pow hpos k
    have hfull : n.log2 + k = 52 := by omega
    have hsmall : n < 2 ^ 53 := (Nat.log2_lt hpos.ne').mp (by omega)
    refine ⟨hlog.trans hfull, ?_⟩
    rw [unpack_ofNat_of_lt hpos hsmall]
    obtain rfl : k = 52 - n.log2 := by omega
    have hexponent : (n.log2 : Int) - 52 = -((52 - n.log2 : Nat) : Int) := by omega
    exact UnpackedFloat.finite.injEq .. |>.mpr ⟨rfl, rfl, hexponent⟩

/-- A finite double that is an integer has the parts of that integer as a double. Only zero may differ, since
it has two signs. -/
theorem unpack_whole_of_int? (hfinite : isFinite x) {n : Int} (hn : int? x = some n) :
    (∃ s, x.toModel.unpack = .zero s ∧ n = 0) ∨
      ∃ s m e hm, x.toModel.unpack = .finite s m e hm ∧
        (Json.Number.whole n).toFloat.toModel.unpack = .finite s m e hm := by
  rcases finite_cases hfinite with ⟨s, hu⟩ | ⟨s, m, e, hm, hu⟩
  · rw [int?_of_zero hu] at hn
    exact .inl ⟨s, hu, (Option.some.inj hn).symm⟩
  · rw [int?_of_finite hu] at hn
    obtain ⟨k, hk, rfl⟩ := Option.map_eq_some_iff.mp hn
    obtain ⟨hlog, hnat⟩ := unpack_ofNat_of_nat? hu hk
    exact .inr ⟨s, m, e, hm, hu, unpack_whole hnat hlog s⟩

/-- Zeros are equal, whatever their signs are. -/
theorem beq_of_zero {s s' : Sign} (hx : x.toModel.unpack = .zero s) (hy : y.toModel.unpack = .zero s') :
    (x == y) = true := by
  have hbeq : (x == y) = UnpackedFloat.beq x.toModel.unpack y.toModel.unpack := rfl
  rw [hbeq, hx, hy]
  rfl

/-- **Integers stay.** A finite double that is an integer is not changed by becoming one and a double
again. -/
theorem beq_whole_of_int? (hfinite : isFinite x) {n : Int} (hn : int? x = some n) :
    (x == (Json.Number.whole n).toFloat) = true := by
  rcases unpack_whole_of_int? hfinite hn with ⟨s, hu, rfl⟩ | ⟨s, m, e, hm, hu, hwhole⟩
  · exact beq_of_zero hu unpack_zero
  · exact beq_of_unpack hu hwhole

/-- The same, seen from the integer. -/
theorem whole_beq_of_int? (hfinite : isFinite x) {n : Int} (hn : int? x = some n) :
    ((Json.Number.whole n).toFloat == x) = true := by
  rcases unpack_whole_of_int? hfinite hn with ⟨s, hu, rfl⟩ | ⟨s, m, e, hm, hu, hwhole⟩
  · exact beq_of_zero unpack_zero hu
  · exact beq_of_unpack hwhole hu

/-- It is the same integer after that. -/
theorem int?_whole_of_int? (hfinite : isFinite x) {n : Int} (hn : int? x = some n) :
    int? (Json.Number.whole n).toFloat = some n := by
  rcases unpack_whole_of_int? hfinite hn with ⟨s, hu, rfl⟩ | ⟨s, m, e, hm, hu, hwhole⟩
  · exact int?_of_zero unpack_zero
  · rw [int?_of_finite hwhole, ← int?_of_finite hu, hn]

/-- What is an integer is finite. -/
theorem isFinite_of_int? {n : Int} (hn : int? x = some n) : isFinite x := by
  rw [isFinite]
  cases hx : ofFloat? x with
  | none =>
    rw [int?, hx] at hn
    cases hn
  | some b => rfl

/-- Small natural numbers are doubles. -/
theorem int?_ofNat {n : Nat} (h : n ≤ 2 ^ 53) : int? (Float.ofNat n) = some (n : Int) := by
  have hsize : (n : Int).natAbs < UInt64.size := Nat.lt_of_le_of_lt h (by decide)
  obtain ⟨m, hm, hrounded⟩ := exists_rounded_whole hsize
  rw [← hrounded.eq_of_le h]
  exact hm

end Binary

end FlowEngine
