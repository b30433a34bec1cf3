import FlowEngine.Decimal.Binary
import Mathlib

/-!
# Unpacking, packing and rounding doubles

Arithmetic on doubles unpacks its operands into sign, mantissa and exponent, computes exactly on
these, rounds the result to a mantissa of 53 bits, and packs it. All that is known about a result
follows from the three steps: what the bits of a double are unpacked to, that packing what is in normal
form loses nothing, and how far rounding can move the exponent. Rounding is stated with the leading bit
of the mantissa, `Nat.log2`, since whether a result overflows depends on nothing else.

## Main definitions

* `Binary.sign`, `Binary.field`, `Binary.fraction`: the parts that the bits of a double hold.

## Main results

* `Binary.unpack_eq`: a double is unpacked into its parts.
* `Binary.unpack_pack`: what is in normal form is packed without loss.
* `Binary.roundWithAccuracy_cases`, `Binary.roundWithAccuracy_normal`: the exponent after rounding.
* `Binary.roundWithAccuracy_exact`: what fits is not rounded.
-/

namespace FlowEngine

open Float.Model Float.Model.UnpackedFloat

namespace Binary

/-! ## Unpacking -/

theorem toNat_unpackExponent (b : BitVec 64) :
    (@unpackExponent .binary64 b).toNat = b.toNat / hidden % 2048 := by
  change ((b.extractLsb 62 52).cast _).toNat = _
  rw [BitVec.toNat_cast, BitVec.extractLsb_toNat, Nat.shiftRight_eq_div_pow]
  rfl

theorem toNat_unpackMantissa (b : BitVec 64) :
    (@unpackMantissa .binary64 b).toNat = b.toNat % hidden := by
  change ((b.extractLsb 51 0).cast _).toNat = _
  rw [BitVec.toNat_cast, BitVec.extractLsb_toNat, Nat.shiftRight_zero]
  rfl

theorem unpackSign_eq_zero_iff (b : BitVec 64) :
    @unpackSign .binary64 b = 0#1 ↔ b.toNat < UInt64.size / 2 := by
  rw [← BitVec.toNat_inj]
  change ((b.extractLsb 63 63).cast _).toNat = _ ↔ _
  rw [BitVec.toNat_cast, BitVec.extractLsb_toNat, Nat.shiftRight_eq_div_pow]
  have := b.isLt
  simp [UInt64.size]
  omega

theorem append_implicit (m : BitVec 52) : (1#1 ++ m).toNat = hidden + m.toNat := by
  rw [BitVec.toNat_append, ← Nat.shiftLeft_add_eq_or_of_lt m.isLt]
  simp [Nat.shiftLeft_eq, hidden]

/-- The sign bit. -/
def sign (x : Float) : Sign := if isNegative x then .negative else .positive

/-- The 52 bits of the mantissa that are stored. -/
def fraction (x : Float) : Nat := x.toBits.toNat % hidden

/-- The 11 bits of the exponent that are stored. -/
def field (x : Float) : Nat := x.toBits.toNat / hidden % 2048

theorem unpackSign_toBits (x : Float) :
    Sign.ofBitVec (@unpackSign .binary64 x.toModel.toBits.toBitVec) = sign x := by
  have hsign := unpackSign_eq_zero_iff x.toModel.toBits.toBitVec
  have hnegative : isNegative x = true ↔ ¬ x.toModel.toBits.toBitVec.toNat < UInt64.size / 2 := by
    rw [isNegative, decide_eq_true_iff, Nat.not_lt]
    rfl
  rw [Sign.ofBitVec, sign]
  by_cases h : isNegative x
  · rw [if_pos h, if_neg (hsign.not.mpr (hnegative.mp h))]
  · rw [if_neg h, if_pos (hsign.mpr (not_not.mp (hnegative.not.mp h)))]

/-- A double is unpacked into its three parts. -/
theorem unpack_eq (x : Float) :
    x.toModel.unpack =
      if field x = 2047 then if fraction x = 0 then .infinity (sign x) else .notANumber
      else if field x = 0 then
        if h : fraction x = 0 then .zero (sign x)
        else .finite (sign x) (fraction x) (-1074) (Nat.pos_of_ne_zero h)
      else .finite (sign x) (hidden + fraction x) ((field x : Int) - 1075)
        (Nat.add_pos_left (by decide) _) := by
  have hfield : (@unpackExponent .binary64 x.toModel.toBits.toBitVec).toNat = field x :=
    toNat_unpackExponent _
  have hfraction : (@unpackMantissa .binary64 x.toModel.toBits.toBitVec).toNat =
      fraction x := toNat_unpackMantissa _
  have hinf : @unpackExponent .binary64 x.toModel.toBits.toBitVec = -1#_ ↔
      field x = 2047 := by
    rw [← hfield, ← BitVec.toNat_inj]
    rfl
  have hzero : @unpackExponent .binary64 x.toModel.toBits.toBitVec = 0#_ ↔
      field x = 0 := by
    rw [← hfield, ← BitVec.toNat_inj]
    rfl
  have hnone : @unpackMantissa .binary64 x.toModel.toBits.toBitVec = 0#_ ↔
      fraction x = 0 := by
    rw [← hfraction, ← BitVec.toNat_inj]
    rfl
  rw [Float.Model.unpack, UnpackedFloat.unpack]
  simp only [hinf, hzero, hnone, hfield, hfraction, unpackSign_toBits,
    append_implicit (@unpackMantissa .binary64 x.toModel.toBits.toBitVec)]
  split
  · rfl
  · split
    · rename_i h
      simp only [h]
      rfl
    · rfl


/-! ## Packing -/

theorem isFinite_unpack_of_exponent {b : BitVec Format.binary64.numBits}
    (h : unpackExponent b ≠ -1#_) : (UnpackedFloat.unpack .binary64 b).isFinite := by
  rw [UnpackedFloat.unpack]
  simp only [if_neg h]
  split
  · split <;> rfl
  · rfl

theorem unpackExponent_pack {s : Sign} {m : Nat} {e : Int} (hm : 0 < m) (h : e ≤ 971) :
    unpackExponent (UnpackedFloat.pack .binary64 (.finite s m e hm)) ≠ -1#_ := by
  have hlt : (e + Format.binary64.exponentBias + Format.binary64.mantissaBitsWithoutImplicit).toNat + 1 <
      2 ^ Format.binary64.exponentBits := by
    change (e + (1023 : Nat) + (52 : Nat)).toNat + 1 < 2048
    omega
  rw [UnpackedFloat.pack]
  simp only [if_neg (Nat.not_le.mpr hlt)]
  split
  all_goals
    rw [unpackExponent_packComponents, ← BitVec.toNat_inj.ne]
  · rw [BitVec.toNat_ofNat, Nat.mod_eq_of_lt (Nat.lt_of_succ_lt hlt)]
    exact Nat.ne_of_lt (Nat.lt_pred_of_succ_lt hlt)
  · decide

theorem isFinite_pack {s : Sign} {m : Nat} {e : Int} (hm : 0 < m) (h : e ≤ 971) :
    (Float.Model.pack (.finite s m e hm)).unpack.isFinite :=
  isFinite_unpack_of_exponent (unpackExponent_pack hm h)

/-- Packing may overflow, but never gives a NaN. -/
theorem isNaN_pack {u : UnpackedFloat} (h : u ≠ .notANumber) :
    (Float.Model.pack u).unpack.isNaN = false := by
  cases u with
  | notANumber => exact absurd rfl h
  | infinity s => cases s <;> rfl
  | zero s => cases s <;> rfl
  | finite s m e hm =>
    by_cases he : e ≤ 971
    · have hfinite := isFinite_pack (s := s) hm he
      cases hu : (Float.Model.pack (.finite s m e hm)).unpack with
      | notANumber =>
        rw [hu] at hfinite
        cases hfinite
      | _ => rfl
    · have hoverflow : 2 ^ Format.binary64.exponentBits ≤
          (e + Format.binary64.exponentBias + Format.binary64.mantissaBitsWithoutImplicit).toNat + 1 := by
        change 2048 ≤ (e + (1023 : Nat) + (52 : Nat)).toNat + 1
        omega
      have hbits : UnpackedFloat.pack .binary64 (.finite s m e hm) =
          UnpackedFloat.pack .binary64 (.infinity s) := by
        rw [UnpackedFloat.pack]
        exact if_pos hoverflow
      have hpack : Float.Model.pack (.finite s m e hm) = Float.Model.pack (.infinity s) := by
        simp only [Float.Model.pack, hbits]
      rw [hpack]
      cases s <;> rfl

theorem unpack_finite_bound {x : Float} {s m e hm} (hu : x.toModel.unpack = .finite s m e hm) :
    m < 2 * hidden ∧ -1074 ≤ e ∧ e ≤ 971 ∧ (hidden ≤ m ∨ e = -1074) := by
  have hfraction : fraction x < hidden := Nat.mod_lt _ (by decide)
  have hfield : field x < 2048 := Nat.mod_lt _ (by decide)
  rw [unpack_eq] at hu
  split at hu
  · split at hu <;> cases hu
  · split at hu
    · split at hu
      · cases hu
      · cases hu
        omega
    · cases hu
      omega

/-! ## Rounding -/

theorem mantissa_shiftRight (em : ExtendedMantissa) (k : Nat) :
    (em >>> k).mantissa = em.mantissa / 2 ^ k := by
  induction k generalizing em with
  | zero => exact (Nat.div_one _).symm
  | succ k ih =>
    change (em >>> k).mantissa / 2 = _
    rw [ih, Nat.div_div_eq_div_mul, Nat.pow_succ]

theorem mantissa_ofMantissaAndAccuracy (m : Nat) (a : Accuracy) :
    (ExtendedMantissa.ofMantissaAndAccuracy m a).mantissa = m := by
  rcases a with _ | (_ | _ | _) <;> rfl

theorem roundedMantissa_le (em : ExtendedMantissa) : em.roundedMantissa ≤ em.mantissa + 1 := by
  obtain ⟨m, r, t⟩ := em
  cases r <;> cases t <;>
    simp only [ExtendedMantissa.roundedMantissa, ExtendedMantissa.accuracy,
      Accuracy.roundToNearestEven] <;> omega

theorem le_roundedMantissa (em : ExtendedMantissa) : em.mantissa ≤ em.roundedMantissa := by
  obtain ⟨m, r, t⟩ := em
  cases r <;> cases t <;>
    simp only [ExtendedMantissa.roundedMantissa, ExtendedMantissa.accuracy,
      Accuracy.roundToNearestEven] <;> omega

/-- A mantissa without its last bits, rounded: at most one is carried. -/
theorem roundedMantissa_shiftRight (m : Nat) (a : Accuracy) (k : Nat) :
    m / 2 ^ k ≤ (ExtendedMantissa.ofMantissaAndAccuracy m a >>> k).roundedMantissa ∧
      (ExtendedMantissa.ofMantissaAndAccuracy m a >>> k).roundedMantissa ≤ m / 2 ^ k + 1 := by
  have hfloor : (ExtendedMantissa.ofMantissaAndAccuracy m a >>> k).mantissa = m / 2 ^ k := by
    rw [mantissa_shiftRight, mantissa_ofMantissaAndAccuracy]
  exact ⟨hfloor ▸ le_roundedMantissa _, hfloor ▸ roundedMantissa_le _⟩

/-- The exponent that rounding aims at. -/
theorem targetExponent_eq (m : Nat) (e : Int) :
    Format.binary64.targetExponent (totalExponent m e) = max ((m.log2 : Int) + e - 52) (-1074) := by
  change max ((m.log2 : Int) + 1 + e - (53 : Nat)) (-1074) = _
  omega

theorem log2_div_two_pow {m k : Nat} (h : k ≤ m.log2) : (m / 2 ^ k).log2 = m.log2 - k := by
  rcases Nat.eq_zero_or_pos m with rfl | hm
  · simp
  · obtain ⟨hle, hlt⟩ := (Nat.log2_eq_iff hm.ne').mp rfl
    have hlow : 2 ^ (m.log2 - k) ≤ m / 2 ^ k := by
      rw [Nat.le_div_iff_mul_le (Nat.two_pow_pos k), ← Nat.pow_add, Nat.sub_add_cancel h]
      exact hle
    refine (Nat.log2_eq_iff (Nat.ne_of_gt (Nat.lt_of_lt_of_le (Nat.two_pow_pos _) hlow))).mpr ⟨hlow, ?_⟩
    rw [Nat.div_lt_iff_lt_mul (Nat.two_pow_pos k), ← Nat.pow_add]
    have hsum : m.log2 - k + 1 + k = m.log2 + 1 := by omega
    rwa [hsum]

/-- Rounding shifts the mantissa to the right, carries at most one, and shifts again if that makes it
too long. -/
theorem exists_rounded (s : Sign) (m : Nat) (e : Int) (a : Accuracy) :
    ∃ k k' r : Nat, (k : Int) = max 0 (max ((m.log2 : Int) + e - 52) (-1074) - e) ∧
      (k' : Int) = max 0 (max ((r.log2 : Int) + (e + k) - 52) (-1074) - (e + k)) ∧
      r = (ExtendedMantissa.ofMantissaAndAccuracy m a >>> k).roundedMantissa ∧
      roundWithAccuracy .binary64 s m e a =
        if h : r / 2 ^ k' = 0 then .zero s
        else .finite s (r / 2 ^ k') (e + k + k') (Nat.pos_of_ne_zero h) := by
  let k := (Format.binary64.targetExponent (totalExponent m e) - e).toNat
  let r := (ExtendedMantissa.ofMantissaAndAccuracy m a >>> k).roundedMantissa
  let k' := (Format.binary64.targetExponent (totalExponent r (e + k)) - (e + k)).toNat
  have hround : roundWithAccuracy .binary64 s m e a =
      if h : (ExtendedMantissa.ofMantissaAndAccuracy r .exact >>> k').mantissa = 0 then .zero s
      else .finite s _ (e + k + k') (Nat.pos_of_ne_zero h) := rfl
  have hmantissa : (ExtendedMantissa.ofMantissaAndAccuracy r .exact >>> k').mantissa = r / 2 ^ k' := by
    rw [mantissa_shiftRight, mantissa_ofMantissaAndAccuracy]
  simp only [hmantissa] at hround
  refine ⟨k, k', r, ?_, ?_, rfl, hround⟩
  · simp only [k, targetExponent_eq]
    omega
  · simp only [k', targetExponent_eq]
    omega

/-- Rounding makes the exponent as large as it has to be, or larger by one. -/
theorem roundWithAccuracy_cases (s : Sign) (m : Nat) (e : Int) (a : Accuracy) :
    roundWithAccuracy .binary64 s m e a = .zero s ∨
      ∃ m' e' hm', roundWithAccuracy .binary64 s m e a = .finite s m' e' hm' ∧
        e' ≤ max e (max ((m.log2 : Int) + e - 52) (-1074)) + 1 := by
  obtain ⟨k, k', r, hk, hk', rfl, hround⟩ := exists_rounded s m e a
  obtain ⟨-, hr⟩ := roundedMantissa_shiftRight m a k
  generalize (ExtendedMantissa.ofMantissaAndAccuracy m a >>> k).roundedMantissa = r at *
  have hlog : r.log2 ≤ 53 := by
    have hfloor : m / 2 ^ k < 2 ^ 53 := by
      rw [Nat.div_lt_iff_lt_mul (Nat.two_pow_pos k), ← Nat.pow_add]
      exact Nat.lt_of_lt_of_le Nat.lt_log2_self (Nat.pow_le_pow_right (by decide) (by omega))
    rcases Nat.eq_zero_or_pos r with rfl | hpos
    · decide
    · exact Nat.lt_succ_iff.mp ((Nat.log2_lt hpos.ne').mpr (by omega))
  by_cases hzero : r / 2 ^ k' = 0
  · exact .inl (hround.trans (dif_pos hzero))
  · exact .inr ⟨_, _, _, hround.trans (dif_neg hzero), by omega⟩

/-- What is long enough is rounded to a full mantissa, and does not lose its leading bit. -/
theorem roundWithAccuracy_normal (s : Sign) {m : Nat} {e : Int} (a : Accuracy) (hm : 52 ≤ m.log2)
    (h : -1022 ≤ (m.log2 : Int) + e) :
    ∃ m' e' hm', roundWithAccuracy .binary64 s m e a = .finite s m' e' hm' ∧ m'.log2 = 52 ∧
      (m.log2 : Int) + e ≤ 52 + e' ∧ e' ≤ max e ((m.log2 : Int) + e - 52) + 1 := by
  obtain ⟨k, k', r, hk, hk', rfl, hround⟩ := exists_rounded s m e a
  obtain ⟨hle, hge⟩ := roundedMantissa_shiftRight m a k
  generalize (ExtendedMantissa.ofMantissaAndAccuracy m a >>> k).roundedMantissa = r at *
  have hpos : m ≠ 0 := by
    rintro rfl
    rw [Nat.log2_zero] at hm
    omega
  have hlog : (m / 2 ^ k).log2 = 52 := by
    rw [log2_div_two_pow (by omega)]
    omega
  have hfloor : 2 ^ 52 ≤ m / 2 ^ k ∧ m / 2 ^ k < 2 ^ 53 :=
    (Nat.log2_eq_iff fun h0 => by simp [h0] at hlog).mp hlog
  have hlow : 52 ≤ r.log2 := (Nat.le_log2 (by omega)).mpr (by omega)
  have hhigh : r.log2 < 54 := (Nat.log2_lt (by omega)).mpr (by omega)
  have hkept : (r / 2 ^ k').log2 = 52 := by
    rw [log2_div_two_pow (by omega)]
    omega
  have hne : r / 2 ^ k' ≠ 0 := fun h0 => by simp [h0] at hkept
  exact ⟨_, _, _, hround.trans (dif_neg hne), hkept, by omega, by omega⟩

/-- The first bit that is shifted out stays, and whether there is another one after it. -/
theorem shiftRight_eq (m k : Nat) :
    ExtendedMantissa.mk m false false >>> k =
      ⟨m / 2 ^ k, decide (2 ^ k ≤ 2 * (m % 2 ^ k)), decide (m % 2 ^ k ≠ 0 ∧ 2 * (m % 2 ^ k) ≠ 2 ^ k)⟩ := by
  induction k with
  | zero => simp [Nat.mod_one]; rfl
  | succ k ih =>
    change (ExtendedMantissa.mk m false false >>> k).shiftRightOne = _
    have hrest : m % 2 ^ (k + 1) = m % 2 ^ k + 2 ^ k * (m / 2 ^ k % 2) := Nat.mod_pow_succ
    have hlt : m % 2 ^ k < 2 ^ k := Nat.mod_lt m (Nat.two_pow_pos k)
    rw [ih, ExtendedMantissa.shiftRightOne, hrest, Nat.pow_succ', Nat.div_div_eq_div_mul, Nat.mul_comm (2 ^ k) 2]
    rcases Nat.mod_two_eq_zero_or_one (m / 2 ^ k) with h | h <;> rw [h] <;>
      simp only [ExtendedMantissa.mk.injEq, true_and, ← Bool.decide_or, decide_eq_decide] <;> simp <;> omega

/-- A mantissa is rounded to the nearest one. -/
theorem roundedMantissa_nearest (m k : Nat) :
    let r := (ExtendedMantissa.ofMantissaAndAccuracy m .exact >>> k).roundedMantissa
    2 * (r * 2 ^ k) ≤ 2 * m + 2 ^ k ∧ 2 * m ≤ 2 * (r * 2 ^ k) + 2 ^ k := by
  have hsum : 2 ^ k * (m / 2 ^ k) + m % 2 ^ k = m := Nat.div_add_mod m (2 ^ k)
  have hlt : m % 2 ^ k < 2 ^ k := Nat.mod_lt m (Nat.two_pow_pos k)
  have hcarry (c : Nat) : (m / 2 ^ k + c) * 2 ^ k = 2 ^ k * (m / 2 ^ k) + c * 2 ^ k := by
    rw [Nat.add_mul, Nat.mul_comm (m / 2 ^ k)]
  have hstay := hcarry 0
  have hnext := hcarry 1
  rw [Nat.add_zero] at hstay
  rw [ExtendedMantissa.ofMantissaAndAccuracy, shiftRight_eq]
  cases hround : decide (2 ^ k ≤ 2 * (m % 2 ^ k)) <;>
    cases hsticky : decide (m % 2 ^ k ≠ 0 ∧ 2 * (m % 2 ^ k) ≠ 2 ^ k) <;>
    simp only [decide_eq_true_eq, decide_eq_false_iff_not] at hround hsticky <;>
    simp only [ExtendedMantissa.roundedMantissa, ExtendedMantissa.accuracy, Accuracy.roundToNearestEven]
  case false.false => omega
  case false.true => omega
  case true.false =>
    -- Of two mantissas that are equally near the even one is taken.
    rcases Nat.mod_two_eq_zero_or_one (m / 2 ^ k) with heven | hodd
    · rw [heven, Nat.add_zero]
      omega
    · rw [hodd]
      omega
  case true.true => omega

/-- Zeros are shifted out without a trace. -/
theorem shiftRight_mul_two_pow (m k : Nat) :
    ExtendedMantissa.mk (m * 2 ^ k) false false >>> k = ⟨m, false, false⟩ := by
  rw [shiftRight_eq, Nat.mul_div_cancel m (Nat.two_pow_pos k), Nat.mul_mod_left]
  simp

theorem log2_mul_two_pow {m : Nat} (hm : 0 < m) (k : Nat) : (m * 2 ^ k).log2 = m.log2 + k := by
  obtain ⟨hle, hlt⟩ := (Nat.log2_eq_iff hm.ne').mp rfl
  refine (Nat.log2_eq_iff (Nat.mul_pos hm (Nat.two_pow_pos k)).ne').mpr ⟨?_, ?_⟩
  · rw [Nat.pow_add]
    exact Nat.mul_le_mul_right _ hle
  · rw [Nat.add_right_comm, Nat.pow_add]
    exact Nat.mul_lt_mul_of_pos_right hlt (Nat.two_pow_pos k)

/-- What fits is not rounded. -/
theorem roundWithAccuracy_exact (s : Sign) {m : Nat} (hm : m.log2 = 52) (hpos : 0 < m) {k : Nat} {e : Int}
    (he : -1074 ≤ e + k) :
    roundWithAccuracy .binary64 s (m * 2 ^ k) e .exact = .finite s m (e + k) hpos := by
  have hlog : (m * 2 ^ k).log2 = 52 + k := by rw [log2_mul_two_pow hpos, hm]
  have hfirst : shiftToTargetExponent .binary64 (m * 2 ^ k) e .exact = (⟨m, false, false⟩, e + k) := by
    have hshift : (max (((m * 2 ^ k).log2 : Int) + e - 52) (-1074) - e).toNat = k := by
      omega
    rw [shiftToTargetExponent, targetExponent_eq, shiftToExponent]
    simp only [hshift]
    exact Prod.ext (shiftRight_mul_two_pow m k) rfl
  have hsecond : shiftToTargetExponent .binary64 m (e + k) .exact = (⟨m, false, false⟩, e + k) := by
    have hshift : (max ((m.log2 : Int) + (e + k) - 52) (-1074) - (e + k)).toNat = 0 := by
      omega
    rw [shiftToTargetExponent, targetExponent_eq, shiftToExponent]
    simp only [hshift]
    exact Prod.ext rfl (by simp)
  have hrounded : (ExtendedMantissa.mk m false false).roundedMantissa = m := rfl
  rw [roundWithAccuracy, hfirst]
  simp only [hrounded, hsecond]
  exact dif_neg hpos.ne'

theorem unpackSign_packComponents (s : Sign) (e : BitVec 11) (m : BitVec 52) :
    Sign.ofBitVec (unpackSign (packComponents .binary64 s e m)) = s := by
  have hbits : unpackSign (packComponents .binary64 s e m) = s.toBitVec := by
    refine BitVec.eq_of_getLsbD_eq fun i hi => ?_
    obtain rfl : i = 0 := Nat.lt_one_iff.mp hi
    change ((((s.toBitVec ++ e ++ m).extractLsb 63 63).cast _).getLsbD 0) = s.toBitVec.getLsbD 0
    rw [BitVec.getLsbD_cast, BitVec.getLsbD_extractLsb, BitVec.getLsbD_append, BitVec.getLsbD_append]
    simp
  rw [hbits]
  cases s <;> rfl

/-- What is in normal form comes out of its bits as it went in. -/
theorem unpack_pack {s : Sign} {m : Nat} {e : Int} {hm : 0 < m} (hlog : m.log2 = 52)
    (hle : -1074 ≤ e) (hge : e ≤ 971) :
    (Float.Model.pack (.finite s m e hm)).unpack = .finite s m e hm := by
  obtain ⟨hlow, hhigh⟩ := (Nat.log2_eq_iff hm.ne').mp hlog
  let biased := (e + (1023 : Nat) + (52 : Nat)).toNat
  have hbiased : (biased : Int) = e + 1075 := by omega
  have hpack : UnpackedFloat.pack .binary64 (.finite s m e hm) =
      packComponents .binary64 s (BitVec.ofNat 11 biased) (BitVec.ofNat 52 m) := by
    rw [UnpackedFloat.pack]
    have hfits : ¬ 2 ^ 11 ≤ biased + 1 := by omega
    have hnormal : m.log2 + 1 = Format.binary64.mantissaBits := by rw [hlog]; rfl
    exact (if_neg hfits).trans (if_pos hnormal)
  have hexponent : (BitVec.ofNat 11 biased).toNat = biased := by
    rw [BitVec.toNat_ofNat, Nat.mod_eq_of_lt (by omega)]
  have hmantissa : hidden + (BitVec.ofNat 52 m).toNat = m := by
    rw [BitVec.toNat_ofNat, hidden]
    omega
  have hinf : ¬ BitVec.ofNat 11 biased = -1#11 := by
    rw [← BitVec.toNat_inj, hexponent]
    change ¬ biased = 2047
    omega
  have hzero : ¬ BitVec.ofNat 11 biased = 0#11 := by
    rw [← BitVec.toNat_inj, hexponent]
    change ¬ biased = 0
    omega
  change UnpackedFloat.unpack .binary64 (UnpackedFloat.pack .binary64 (.finite s m e hm)) = _
  rw [hpack, UnpackedFloat.unpack]
  simp only [unpackExponent_packComponents, unpackMantissa_packComponents, unpackSign_packComponents]
  rw [if_neg hinf, if_neg hzero]
  simp only [append_implicit (BitVec.ofNat 52 m), hmantissa]
  have he : ((BitVec.ofNat 11 biased).toNat : Int) - ((1023 : Nat) + (52 : Nat)) = e := by
    rw [hexponent]
    omega
  exact UnpackedFloat.finite.injEq .. |>.mpr ⟨rfl, rfl, he⟩

end Binary

end FlowEngine
