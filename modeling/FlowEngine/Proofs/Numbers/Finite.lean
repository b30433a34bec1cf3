import FlowEngine.Decimal.Scaled
import FlowEngine.Proofs.Numbers.Rounding

/-!
# Finite doubles

No decimal is read as an infinity or a NaN. The significand fits in 64 bits, so as a double it is
finite; the powers of ten that are used are finite, and at least two except for the first; and a finite
double stays finite when it is divided by such a number, or when a product that is infinite is refused.

Natural numbers of at most 53 significant bits are doubles, so nothing is lost when they become one.

## Main definitions

* `Binary.IsLarge`: doubles from two on.

## Main results

* `Binary.unpack_ofNat_of_lt`, `Binary.unpack_ofNat_mul_two_pow`: natural numbers that are doubles.
* `Binary.isFinite_mul`, `Binary.isFinite_div`: products and quotients that are finite.
* `Decimal.isFinite_of_scaled`: what becomes of a decimal is finite.
-/

namespace FlowEngine

open Float.Model Float.Model.UnpackedFloat

namespace Binary

variable {x : Float}

/-! ## Natural numbers as doubles -/

theorem log2_lt_53 {n : Nat} (hpos : 0 < n) (h : n < 2 ^ 53) : n.log2 < 53 :=
  (Nat.log2_lt hpos.ne').mpr h

/-- A number of less than 53 bits is shifted to the left until its mantissa is full. -/
theorem round_nat {n : Nat} (hpos : 0 < n) (h : n < 2 ^ 53) :
    UnpackedFloat.round .binary64 .positive n 0 =
      .finite .positive (n * 2 ^ (52 - n.log2)) ((n.log2 : Int) - 52)
        (Nat.mul_pos hpos (Nat.two_pow_pos _)) := by
  have hlog := log2_lt_53 hpos h
  have hfull : (n * 2 ^ (52 - n.log2)).log2 = 52 := by
    rw [log2_mul_two_pow hpos]
    omega
  have hshift : ((0 : Int) - max ((n.log2 : Int) + 0 - 52) (-1074)).toNat = 52 - n.log2 := by omega
  have hexact := roundWithAccuracy_exact .positive hfull (Nat.mul_pos hpos (Nat.two_pow_pos _)) (k := 0)
    (e := (n.log2 : Int) - 52) (by omega)
  rw [Nat.pow_zero, Nat.mul_one] at hexact
  rw [UnpackedFloat.round, decreaseExponent, targetExponent_eq]
  simp only [hshift, Nat.shiftLeft_eq]
  have hexponent : (0 : Int) - (52 - n.log2 : Nat) = (n.log2 : Int) - 52 := by omega
  rw [hexponent, hexact]
  simp

theorem unpack_toFloat {n : Nat} (hpos : 0 < n) (h : n < 2 ^ 53) :
    n.toUInt64.toFloat.toModel.unpack =
      .finite .positive (n * 2 ^ (52 - n.log2)) ((n.log2 : Int) - 52)
        (Nat.mul_pos hpos (Nat.two_pow_pos _)) := by
  have hlog := log2_lt_53 hpos h
  have hword : n.toUInt64.toNat = n := by
    rw [Nat.toUInt64, UInt64.toNat_ofNat', Nat.mod_eq_of_lt (Nat.lt_trans h (by decide))]
  have hcompare : compare (n : Int) 0 = .gt := Int.compare_eq_gt.mpr (by omega)
  have hmodel : n.toUInt64.toFloat.toModel =
      Float.Model.pack (UnpackedFloat.round .binary64 .positive n 0) := by
    change Float.Model.pack (UnpackedFloat.normalize .binary64 (n.toUInt64.toNat : Int) 0 .positive) = _
    rw [hword, UnpackedFloat.normalize, hcompare]
    rfl
  rw [hmodel, round_nat hpos h, unpack_pack]
  · rw [log2_mul_two_pow hpos]
    omega
  · omega
  · omega

theorem unpack_one : (Float.ofBits 0x3FF0000000000000).toModel.unpack =
    .finite .positive hidden (-52) (by decide) := by
  have hfield : field (Float.ofBits 0x3FF0000000000000) = 1023 := by decide +kernel
  have hfraction : fraction (Float.ofBits 0x3FF0000000000000) = 0 := by decide +kernel
  have hsign : isNegative (Float.ofBits 0x3FF0000000000000) = false := by decide +kernel
  rw [unpack_eq]
  simp only [hfield, hfraction, sign, hsign]
  rfl

theorem unpack_mul (x y : Float) :
    (x * y).toModel.unpack =
      (Float.Model.pack (UnpackedFloat.mul .binary64 x.toModel.unpack y.toModel.unpack)).unpack :=
  rfl

theorem mul_positive {m m' : Nat} {e e' : Int} {hm : 0 < m} {hm' : 0 < m'} :
    UnpackedFloat.mul .binary64 (.finite .positive m e hm) (.finite .positive m' e' hm') =
      roundWithAccuracy .binary64 .positive (m * m') (e + e') .exact :=
  rfl

theorem ofNat_of_lt {n : Nat} (h : n < 2 ^ 53) :
    Float.ofNat n = n.toUInt64.toFloat * Float.ofBits 0x3FF0000000000000 := by
  have hsmall : n < 2 ^ 53 ∧ 0 ≤ 22 := ⟨h, by decide⟩
  change Float.ofScientific n false 0 = _
  rw [Float.ofScientific, dif_pos hsmall]
  rfl

/-- Numbers of less than 53 bits are doubles. -/
theorem unpack_ofNat_of_lt {n : Nat} (hpos : 0 < n) (h : n < 2 ^ 53) :
    (Float.ofNat n).toModel.unpack =
      .finite .positive (n * 2 ^ (52 - n.log2)) ((n.log2 : Int) - 52)
        (Nat.mul_pos hpos (Nat.two_pow_pos _)) := by
  have hlog := log2_lt_53 hpos h
  have hfull : (n * 2 ^ (52 - n.log2)).log2 = 52 := by
    rw [log2_mul_two_pow hpos]
    omega
  have hexponent : (n.log2 : Int) - 52 + -52 + (52 : Nat) = (n.log2 : Int) - 52 := by omega
  have hexact := roundWithAccuracy_exact .positive hfull (Nat.mul_pos hpos (Nat.two_pow_pos _)) (k := 52)
    (e := (n.log2 : Int) - 52 + -52) (by omega)
  simp only [hexponent] at hexact
  have hhidden : hidden = 2 ^ 52 := rfl
  rw [ofNat_of_lt h, unpack_mul, unpack_toFloat hpos h, unpack_one, mul_positive, hhidden, hexact,
    unpack_pack hfull]
  · omega
  · omega

theorem ofScientific_natural {n : Nat} (hpos : 0 < n) :
    UnpackedFloat.ofScientific .binary64 n 0 =
      roundWithAccuracy .binary64 .positive (n * 2 ^ 53) (-53) .exact := by
  have hlarge : ¬ (0 : Int) > 2 ^ 11 := by decide
  have hsmall : ¬ (0 : Int) < -((2 ^ 11 : Int) + n.log2) := by omega
  rw [UnpackedFloat.ofScientific, dif_neg hpos.ne', if_neg hlarge, if_neg hsmall, if_pos (Int.le_refl 0),
    mul_positive, Nat.shiftLeft_eq, Int.toNat_zero, Nat.pow_zero, Nat.mul_one]
  rfl

theorem unpack_ofNat_of_le {n : Nat} (h : 2 ^ 53 ≤ n) :
    (Float.ofNat n).toModel.unpack =
      (Float.Model.pack (roundWithAccuracy .binary64 .positive (n * 2 ^ 53) (-53) .exact)).unpack := by
  have hslow : ¬ (n < 2 ^ 53 ∧ 0 ≤ 22) := fun hn => Nat.not_lt.mpr h hn.1
  have hmodel : Float.ofNat n = Float.ofModel (Float.Model.ofScientific n 0) := by
    change Float.ofScientific n false 0 = _
    rw [Float.ofScientific, dif_neg hslow]
    rfl
  rw [hmodel, ← ofScientific_natural (Nat.lt_of_lt_of_le (Nat.two_pow_pos 53) h)]
  rfl

/-- Larger numbers are doubles if they end with zeros. -/
theorem unpack_ofNat_mul_two_pow {m k : Nat} (hm : m.log2 = 52) (hpos : 0 < m) (hk : k ≤ 971)
    (h : 2 ^ 53 ≤ m * 2 ^ k) :
    (Float.ofNat (m * 2 ^ k)).toModel.unpack = .finite .positive m k hpos := by
  have hexact := roundWithAccuracy_exact .positive hm hpos (k := k + 53) (e := -53) (by omega)
  have hexponent : (-53 : Int) + (k + 53 : Nat) = k := by omega
  rw [unpack_ofNat_of_le h, Nat.mul_assoc, ← Nat.pow_add]
  simp only [hexponent] at hexact
  rw [hexact, unpack_pack hm]
  · omega
  · omega

theorem isFinite_pack_round {s : Sign} {m : Nat} {e : Int} {a : Accuracy} (he : e ≤ 970)
    (h : (m.log2 : Int) + e ≤ 1022) :
    (Float.Model.pack (roundWithAccuracy .binary64 s m e a)).unpack.isFinite := by
  rcases roundWithAccuracy_cases s m e a with hr | ⟨m', e', hm', hr, hle⟩
  · rw [hr]
    cases s <;> rfl
  · rw [hr]
    exact isFinite_pack hm' (by omega)

/-! ## Finite doubles -/

theorem isFinite_eq (x : Float) : isFinite x = x.toModel.unpack.isFinite := by
  have hfield : x.toBits.toNat / hidden % 2048 = field x := rfl
  rw [isFinite, ofFloat?, unpack_eq]
  simp only [hfield]
  split
  · split <;> rfl
  · split
    · split <;> rfl
    · rfl

/-- The parts of a double that is not zero. -/
theorem ofFloat?_of_finite {s m e hm} (h : x.toModel.unpack = .finite s m e hm) :
    ∃ narrow, ofFloat? x = some ⟨m, e, narrow⟩ ∧ sign x = s := by
  have hfield : x.toBits.toNat / hidden % 2048 = field x := rfl
  have hfraction : x.toBits.toNat % hidden = fraction x := rfl
  rw [unpack_eq] at h
  rw [ofFloat?]
  simp only [hfield, hfraction]
  split at h
  · split at h <;> cases h
  · rename_i hinf
    rw [if_neg hinf]
    split at h
    · rename_i hzero
      rw [if_pos hzero]
      split at h
      · cases h
      · cases h
        exact ⟨_, rfl, rfl⟩
    · rename_i hzero
      rw [if_neg hzero]
      cases h
      exact ⟨_, rfl, rfl⟩

/-- The parts of zero. -/
theorem ofFloat?_of_zero {s} (h : x.toModel.unpack = .zero s) :
    ofFloat? x = some ⟨0, -1074, false⟩ := by
  have hfield : x.toBits.toNat / hidden % 2048 = field x := rfl
  have hfraction : x.toBits.toNat % hidden = fraction x := rfl
  rw [unpack_eq] at h
  rw [ofFloat?]
  simp only [hfield, hfraction]
  split at h
  · split at h <;> cases h
  · rename_i hinf
    rw [if_neg hinf]
    split at h
    · rename_i hzero
      rw [if_pos hzero]
      split at h
      · rename_i hnone
        rw [hnone]
      · cases h
    · cases h

/-- A finite double is zero or not. -/
theorem finite_cases (h : isFinite x) :
    (∃ s, x.toModel.unpack = .zero s) ∨ ∃ s m e hm, x.toModel.unpack = .finite s m e hm := by
  rw [isFinite_eq] at h
  cases hu : x.toModel.unpack with
  | zero s => exact .inl ⟨s, rfl⟩
  | finite s m e hm => exact .inr ⟨s, m, e, hm, rfl⟩
  | notANumber =>
    rw [hu] at h
    cases h
  | infinity s =>
    rw [hu] at h
    cases h

theorem isFinite_neg (h : isFinite x) : isFinite (-x) := by
  have hneg : (-x).toModel = Float.Model.pack x.toModel.unpack.neg := rfl
  rw [isFinite_eq, hneg]
  rcases finite_cases h with ⟨s, hu⟩ | ⟨s, m, e, hm, hu⟩
  · rw [hu]
    cases s <;> rfl
  · obtain ⟨-, -, he, -⟩ := unpack_finite_bound hu
    rw [hu]
    exact isFinite_pack hm he

/-- A product that does not overflow is finite. -/
theorem isFinite_mul {y : Float} (hx : isFinite x) (hy : isFinite y) (h : (x * y).isInf = false) :
    isFinite (x * y) := by
  have hproduct : (x * y).toModel =
      Float.Model.pack (UnpackedFloat.mul .binary64 x.toModel.unpack y.toModel.unpack) := rfl
  have hnumber : UnpackedFloat.mul .binary64 x.toModel.unpack y.toModel.unpack ≠ .notANumber := by
    rcases finite_cases hx with ⟨s, hu⟩ | ⟨s, m, e, hm, hu⟩ <;>
      rcases finite_cases hy with ⟨s', hu'⟩ | ⟨s', m', e', hm', hu'⟩ <;> rw [hu, hu']
    · nofun
    · nofun
    · nofun
    · have hround : UnpackedFloat.mul .binary64 (.finite s m e hm) (.finite s' m' e' hm') =
          roundWithAccuracy .binary64 (s * s') (m * m') (e + e') .exact := rfl
      rw [hround]
      rcases roundWithAccuracy_cases (s * s') (m * m') (e + e') .exact with hr | ⟨_, _, _, hr, -⟩ <;>
        rw [hr] <;> nofun
  have hnan := isNaN_pack hnumber
  rw [← hproduct] at hnan
  have hinf : (x * y).toModel.unpack.isInf = false := h
  rw [isFinite_eq]
  cases hu : (x * y).toModel.unpack <;> rw [hu] at hnan hinf <;>
    simp_all [UnpackedFloat.isFinite, UnpackedFloat.isNaN, UnpackedFloat.isInf]

/-- A double that is two or more. -/
def IsLarge (x : Float) : Prop :=
  ∃ m e hm, x.toModel.unpack = .finite .positive m e hm ∧ 1 ≤ (m.log2 : Int) + e

theorem div_zero_finite {s s' : Sign} {m : Nat} {e : Int} {hm : 0 < m} :
    UnpackedFloat.div .binary64 (.zero s) (.finite s' m e hm) = .zero (s / s') :=
  rfl

theorem div_finite {s s' : Sign} {m m' : Nat} {e e' : Int} {hm : 0 < m} {hm' : 0 < m'} :
    UnpackedFloat.div .binary64 (.finite s m e hm) (.finite s' m' e' hm') =
      roundWithAccuracy .binary64 (s / s') (divCore .binary64 m e m' e').1
        (divCore .binary64 m e m' e').2.1 (divCore .binary64 m e m' e').2.2 :=
  rfl

/-- The quotient has at most half the magnitude of the dividend. -/
theorem divCore_le {m m' : Nat} {e e' : Int} (hm' : 0 < m') (h : (m.log2 : Int) + e ≤ 1023)
    (h' : 1 ≤ (m'.log2 : Int) + e') :
    (divCore .binary64 m e m' e').2.1 ≤ 970 ∧
      ((divCore .binary64 m e m' e').1.log2 : Int) + (divCore .binary64 m e m' e').2.1 ≤ 1022 := by
  let t := min (e - e') (Format.binary64.targetExponent (totalExponent m e - totalExponent m' e'))
  let k := (e - e' - t).toNat
  let q := (m <<< k) / m'
  have ht : t ≤ max ((m.log2 : Int) + e - (m'.log2 + e') - 53) (-1074) := by
    have htarget : Format.binary64.targetExponent (totalExponent m e - totalExponent m' e') =
        max (((m.log2 : Int) + 1 + e) - (m'.log2 + 1 + e') - (53 : Nat)) (-1074) := rfl
    have hmin : t ≤ Format.binary64.targetExponent (totalExponent m e - totalExponent m' e') :=
      min_le_right ..
    omega
  have hk : (k : Int) = e - e' - t := Int.toNat_of_nonneg (by
    have hmin : t ≤ e - e' := min_le_left ..
    omega)
  change t ≤ 970 ∧ (q.log2 : Int) + t ≤ 1022
  refine ⟨by omega, ?_⟩
  rcases Nat.eq_zero_or_pos q with hq | hq
  · rw [hq, Nat.log2_zero]
    omega
  · have hproduct : 2 ^ (q.log2 + m'.log2) < 2 ^ (m.log2 + 1 + k) :=
      calc 2 ^ (q.log2 + m'.log2) = 2 ^ q.log2 * 2 ^ m'.log2 := Nat.pow_add ..
        _ ≤ q * m' := Nat.mul_le_mul (Nat.log2_self_le hq.ne') (Nat.log2_self_le hm'.ne')
        _ ≤ m <<< k := Nat.div_mul_le_self ..
        _ = m * 2 ^ k := Nat.shiftLeft_eq ..
        _ < 2 ^ (m.log2 + 1) * 2 ^ k := Nat.mul_lt_mul_of_pos_right Nat.lt_log2_self (Nat.two_pow_pos k)
        _ = 2 ^ (m.log2 + 1 + k) := (Nat.pow_add ..).symm
    have := (Nat.pow_lt_pow_iff_right (by decide)).mp hproduct
    omega

/-- A quotient by a number from two on is finite. -/
theorem isFinite_div {y : Float} (hx : isFinite x) (hy : IsLarge y) : isFinite (x / y) := by
  obtain ⟨m', e', hm', hu', hlarge⟩ := hy
  have hquotient : (x / y).toModel =
      Float.Model.pack (UnpackedFloat.div .binary64 x.toModel.unpack y.toModel.unpack) := rfl
  rw [isFinite_eq, hquotient, hu']
  rcases finite_cases hx with ⟨s, hu⟩ | ⟨s, m, e, hm, hu⟩
  · rw [hu, div_zero_finite]
    cases s <;> rfl
  · obtain ⟨hm2, -, he, -⟩ := unpack_finite_bound hu
    have hlog : m.log2 < 53 := log2_lt_53 hm hm2
    obtain ⟨hexponent, hmagnitude⟩ := divCore_le (m := m) (e := e) hm' (by omega) hlarge
    rw [hu, div_finite]
    exact isFinite_pack_round hexponent hmagnitude

theorem isFinite_ofNat {n : Nat} (h : n < UInt64.size) : isFinite (Float.ofNat n) := by
  rcases Nat.eq_zero_or_pos n with rfl | hpos
  · decide +kernel
  · by_cases hsmall : n < 2 ^ 53
    · rw [isFinite_eq, unpack_ofNat_of_lt hpos hsmall]
      rfl
    · have hlog : n.log2 < 64 := (Nat.log2_lt hpos.ne').mpr h
      rw [isFinite_eq, unpack_ofNat_of_le (Nat.not_lt.mp hsmall)]
      refine isFinite_pack_round (by decide) ?_
      rw [log2_mul_two_pow hpos]
      omega

theorem isLarge_of_field (hsign : isNegative x = false) (hle : 1024 ≤ field x) (hlt : field x < 2047) :
    IsLarge x := by
  have hlog : (hidden + fraction x).log2 = 52 := by
    have hfraction : fraction x < hidden := Nat.mod_lt _ (by decide)
    refine (Nat.log2_eq_iff (by simp [hidden])).mpr ⟨Nat.le_add_right .., ?_⟩
    exact Nat.add_lt_add_left hfraction hidden
  refine ⟨hidden + fraction x, (field x : Int) - 1075, Nat.add_pos_left (by decide) _, ?_, by omega⟩
  rw [unpack_eq, if_neg hlt.ne, if_neg (Nat.ne_of_gt (Nat.lt_of_lt_of_le (by decide) hle)), sign, hsign]
  rfl

end Binary

namespace Decimal

open Binary

/-! ## Decimals -/

theorem isLarge_table : ∀ n, n ≤ 22 → 1 ≤ n →
    isNegative (power n) = false ∧ 1024 ≤ field (power n) ∧ field (power n) < 2047 := by
  decide +kernel

theorem isLarge_greatestPower : isNegative (power greatestPower) = false ∧
    1024 ≤ field (power greatestPower) ∧ field (power greatestPower) < 2047 := by
  decide +kernel

theorem power_of_lt {n : Nat} (h : 22 < n) (hn : n ≤ greatestPower) :
    power n = .ofModel (.pack
      (roundWithAccuracy .binary64 .positive (2 ^ 53 * 10 ^ n) (-53) .exact)) := by
  have hslow : ¬ (1 < 2 ^ 53 ∧ n ≤ 22) := fun hs => Nat.not_le.mpr h hs.2
  have hlarge : ¬ (n : Int) > 2 ^ 11 := by
    rw [greatestPower] at hn
    omega
  have hsmall : ¬ (n : Int) < -((2 ^ 11 : Int) + Nat.log2 1) := by omega
  have hmodel : UnpackedFloat.ofScientific .binary64 1 n =
      roundWithAccuracy .binary64 .positive (2 ^ 53 * 10 ^ n) (-53) .exact := by
    rw [UnpackedFloat.ofScientific, dif_neg Nat.one_ne_zero, if_neg hlarge, if_neg hsmall,
      if_pos (Int.natCast_nonneg n), mul_positive, Nat.shiftLeft_eq, Int.toNat_natCast, Nat.one_mul]
    rfl
  rw [power, Float.ofScientific, dif_neg hslow, ← hmodel]
  rfl

/-- Powers of ten from ten on are large. -/
theorem isLarge_power {n : Nat} (hpos : 0 < n) (h : n ≤ greatestPower) : IsLarge (power n) := by
  by_cases htable : n ≤ 22
  · obtain ⟨hsign, hle, hlt⟩ := isLarge_table n htable hpos
    exact isLarge_of_field hsign hle hlt
  by_cases hgreatest : n = greatestPower
  · obtain ⟨hsign, hle, hlt⟩ := isLarge_greatestPower
    exact hgreatest ▸ isLarge_of_field hsign hle hlt
  · have hlog : 1 ≤ (10 ^ n).log2 ∧ (10 ^ n).log2 ≤ 1020 := by
      have hten : 10 ^ n ≠ 0 := (Nat.pow_pos (by decide)).ne'
      have hlt : n ≤ 307 := Nat.le_of_lt_succ (Nat.lt_of_le_of_ne h hgreatest)
      refine ⟨(Nat.le_log2 hten).mpr ?_, Nat.le_of_lt_succ ((Nat.log2_lt hten).mpr ?_)⟩
      · exact Nat.le_trans (by decide) (Nat.pow_le_pow_right (by decide) hpos)
      · exact Nat.lt_of_le_of_lt (Nat.pow_le_pow_right (by decide) hlt) (by decide +kernel)
    have hfull : (2 ^ 53 * 10 ^ n).log2 = (10 ^ n).log2 + 53 := by
      rw [Nat.mul_comm, log2_mul_two_pow (Nat.pow_pos (by decide))]
    obtain ⟨m, e, hm, hround, hmantissa, hle, hge⟩ := roundWithAccuracy_normal .positive
      (m := 2 ^ 53 * 10 ^ n) (e := -53) .exact (by omega) (by omega)
    rw [power_of_lt (Nat.not_le.mp htable) h, hround]
    exact ⟨m, e, hm, unpack_pack hmantissa (by omega) (by omega), by omega⟩

theorem isFinite_power {n : Nat} (h : n ≤ greatestPower) : isFinite (power n) := by
  rcases Nat.eq_zero_or_pos n with rfl | hpos
  · decide +kernel
  · obtain ⟨m, e, hm, hu, -⟩ := isLarge_power hpos h
    rw [isFinite_eq, hu]
    rfl

theorem isFinite_dividedBy {x : Float} (hx : isFinite x) {n : Nat} (hn : 0 < n) :
    isFinite (dividedBy x n) := by
  fun_induction dividedBy x n with
  | case1 x n h => exact isFinite_div hx (isLarge_power hn h)
  | case2 x n h hzero => exact hx
  | case3 x n h hzero ih =>
    exact ih (isFinite_div hx (isLarge_power (by decide) (Nat.le_refl _))) (by omega)

/-- What becomes of a decimal is finite. -/
theorem isFinite_of_scaled {significand : Nat} (h : significand < UInt64.size) {exponent : Int} {x : Float}
    (hx : scaled? significand exponent = some x) : isFinite x := by
  have hfinite := isFinite_ofNat h
  rw [scaled?] at hx
  split at hx
  · rename_i hneg
    obtain rfl := Option.some.inj hx
    exact isFinite_dividedBy hfinite (by omega)
  · split at hx
    · rename_i hle
      dsimp only at hx
      split at hx
      · cases hx
      · rename_i hinf
        obtain rfl := Option.some.inj hx
        exact isFinite_mul hfinite (isFinite_power hle) (by simpa using hinf)
    · split at hx
      · obtain rfl := Option.some.inj hx
        exact hfinite
      · cases hx

end Decimal

end FlowEngine
