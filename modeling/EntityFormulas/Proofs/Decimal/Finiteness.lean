/-
  EntityFormulas/Proofs/Decimal/Finiteness.lean
  =============================================
  **Operations whose results are finite.**

  A number is packed into its 64 bits from a mantissa and an exponent; it is
  finite as long as the exponent is small enough (`Fits`).  Signs do not matter
  for that, and rounding makes an exponent at most one larger than it has to be
  (`fits_roundWithAccuracy`).  So the absolute value, the square root and the
  whole numbers next to a finite number are finite, and so are all counts.
-/
import EntityFormulas.Decimal.Rounding
import Mathlib

namespace EntityFormulas

open Float.Model Float.Model.UnpackedFloat

/-! ### Bits -/

theorem toNat_unpackExponent (b : BitVec 64) :
    (@unpackExponent Format.binary64 b).toNat = b.toNat / 2 ^ 52 % 2 ^ 11 := by
  simp [unpackExponent, Nat.shiftRight_eq_div_pow]

/-- A number is finite unless all bits of its exponent are set. -/
theorem isFiniteNumber_iff (x : Float) : isFiniteNumber x = true ↔
    @unpackExponent Format.binary64 x.toModel.toBits.toBitVec ≠ -1#11 := by
  have hexponent : @unpackExponent Format.binary64 x.toModel.toBits.toBitVec = -1#11 ↔
      x.toBits.toNat / 4503599627370496 % 2048 = 2047 := by
    rw [← BitVec.toNat_inj, toNat_unpackExponent]
    rfl
  rw [ne_eq, hexponent]
  unfold isFiniteNumber Binary.ofFloat Binary.significandBase Binary.exponentBase
  by_cases hmax : x.toBits.toNat / 4503599627370496 % 2048 = 2047
  · by_cases hzero : x.toBits.toNat % 4503599627370496 = 0 <;> simp [hmax, hzero]
  · by_cases hzero : x.toBits.toNat / 4503599627370496 % 2048 = 0 <;> simp [hmax, hzero]

/-! ### Exponents -/

/-- An unpacked number that is neither infinite nor NaN and whose exponent is at most `k`. -/
inductive Fits (k : Int) : UnpackedFloat → Prop
  | zero {s : Sign} : Fits k (.zero s)
  | finite {s : Sign} {m : Nat} {e : Int} {hm : 0 < m} (he : e ≤ k) : Fits k (.finite s m e hm)

theorem Fits.neg {k : Int} {u : UnpackedFloat} : Fits k u → Fits k u.neg
  | .zero => .zero
  | .finite he => .finite he

theorem Fits.abs {k : Int} {u : UnpackedFloat} : Fits k u → Fits k u.abs
  | .zero => .zero
  | .finite he => .finite he

/-- Bits whose exponent is not too large are those of a number that fits. -/
theorem fits_unpack_bits {k : Int} (hk : -1074 ≤ k) {b : BitVec 64}
    (hne : @unpackExponent Format.binary64 b ≠ -1#11)
    (hle : ((@unpackExponent Format.binary64 b).toNat : Int) ≤ k + 1075) :
    Fits k (UnpackedFloat.unpack Format.binary64 b) := by
  unfold UnpackedFloat.unpack
  simp only [if_neg hne]
  split
  · rename_i hzero
    split
    · exact .zero
    · refine .finite ?_
      rw [hzero]
      exact hk
  · refine .finite ?_
    show (_ : Int) - (1023 + 52) ≤ k
    omega

theorem fits_unpack {x : Float} (hx : isFiniteNumber x = true) : Fits 971 x.toModel.unpack := by
  have hexponent := (isFiniteNumber_iff x).1 hx
  have hlt : (@unpackExponent Format.binary64 x.toModel.toBits.toBitVec).toNat < 2048 :=
    BitVec.isLt _
  have hne : (@unpackExponent Format.binary64 x.toModel.toBits.toBitVec).toNat ≠ 2047 :=
    fun h => hexponent (BitVec.eq_of_toNat_eq h)
  exact fits_unpack_bits (by decide) hexponent (by omega)

theorem toNat_append_one (v : BitVec 52) : (1#1 ++ v).toNat = 2 ^ 52 + v.toNat := by
  rw [BitVec.toNat_append, ← Nat.shiftLeft_add_eq_or_of_lt v.isLt]
  rfl

theorem mantissa_unpack {x : Float.Model} {s : Sign} {m : Nat} {e : Int} {hm : 0 < m}
    (h : x.unpack = .finite s m e hm) : m < 2 ^ 53 ∧ -1074 ≤ e := by
  have hmantissa : (@unpackMantissa Format.binary64 x.toBits.toBitVec).toNat < 2 ^ 52 :=
    BitVec.isLt _
  unfold Float.Model.unpack UnpackedFloat.unpack at h
  simp only at h
  split at h
  · split at h <;> exact nomatch h
  · split at h
    · rename_i hzero
      split at h
      · exact nomatch h
      · cases h
        rw [hzero]
        exact ⟨by omega, by decide⟩
    · cases h
      rw [toNat_append_one]
      refine ⟨by omega, ?_⟩
      show -1074 ≤ (_ : Int) - (1023 + 52)
      rename_i hne
      have : (@unpackExponent Format.binary64 x.toBits.toBitVec).toNat ≠ 0 :=
        fun h => hne (BitVec.eq_of_toNat_eq h)
      omega

/-- The bits of what is packed with an exponent that fits. -/
theorem pack_eq {k : Int} (hk : -1074 ≤ k) (hk' : k ≤ 971) {u : UnpackedFloat} (hu : Fits k u) :
    ∃ (s : Sign) (exponent : BitVec 11) (mantissa : BitVec 52),
      UnpackedFloat.pack Format.binary64 u = packComponents Format.binary64 s exponent mantissa ∧
        exponent.toNat < 2047 ∧ (exponent.toNat : Int) ≤ k + 1075 := by
  cases hu with
  | @zero s => exact ⟨s, 0, 0, rfl, by decide, show (0 : Int) ≤ _ by omega⟩
  | @finite s m e hm he =>
    have hbiased : ¬ 2 ^ 11 ≤ (e + (1023 : Nat) + (52 : Nat)).toNat + 1 := by omega
    have hpack : UnpackedFloat.pack Format.binary64 (.finite s m e hm) =
        if m.log2 + 1 = 53 then packComponents Format.binary64 s
          (BitVec.ofNat 11 (e + (1023 : Nat) + (52 : Nat)).toNat) (BitVec.ofNat 52 m)
        else packComponents Format.binary64 s 0 (BitVec.ofNat 52 m) := if_neg hbiased
    rw [hpack]
    split
    · refine ⟨s, _, _, rfl, ?_⟩
      rw [BitVec.toNat_ofNat, Nat.mod_eq_of_lt (by omega)]
      exact ⟨by omega, by omega⟩
    · exact ⟨s, _, _, rfl, by decide, show (0 : Int) ≤ _ by omega⟩

/-- What is packed with an exponent that fits is finite. -/
theorem isFiniteNumber_pack {u : UnpackedFloat} (hu : Fits 971 u) :
    isFiniteNumber (.ofModel (.pack u)) = true := by
  obtain ⟨s, exponent, mantissa, hpack, hlt, -⟩ := pack_eq (by decide) (Int.le_refl _) hu
  rw [isFiniteNumber_iff]
  show unpackExponent (UnpackedFloat.pack Format.binary64 u) ≠ -1#11
  rw [hpack, unpackExponent_packComponents]
  rintro rfl
  exact absurd hlt (by decide)

/-- A number comes back from its bits with an exponent that fits. -/
theorem fits_unpack_pack {k : Int} (hk : -1074 ≤ k) (hk' : k ≤ 971) {u : UnpackedFloat}
    (hu : Fits k u) : Fits k (Float.Model.pack u).unpack := by
  obtain ⟨s, exponent, mantissa, hpack, hlt, hle⟩ := pack_eq hk hk' hu
  show Fits k (UnpackedFloat.unpack Format.binary64 (UnpackedFloat.pack Format.binary64 u))
  rw [hpack]
  refine fits_unpack_bits hk ?_ ?_ <;> rw [unpackExponent_packComponents]
  · rintro rfl
    exact absurd hlt (by decide)
  · exact hle

/-! ### Rounding -/

theorem mantissa_shiftRight (em : ExtendedMantissa) (k : Nat) :
    (em >>> k).mantissa = em.mantissa / 2 ^ k := by
  induction k with
  | zero => exact (Nat.div_one _).symm
  | succ k ih =>
    show (em >>> k).mantissa / 2 = _
    rw [ih, Nat.div_div_eq_div_mul, Nat.pow_succ]

theorem roundedMantissa_le (em : ExtendedMantissa) : em.roundedMantissa ≤ em.mantissa + 1 := by
  obtain ⟨m, round, sticky⟩ := em
  cases round <;> cases sticky <;>
    simp only [ExtendedMantissa.roundedMantissa, ExtendedMantissa.accuracy,
      Accuracy.roundToNearestEven] <;> omega

theorem mantissa_ofMantissaAndAccuracy (m : Nat) (a : Accuracy) :
    (ExtendedMantissa.ofMantissaAndAccuracy m a).mantissa = m := by
  cases a with
  | exact => rfl
  | inexact o => cases o <;> rfl

/-- A mantissa is shifted until it has no more than 53 bits. -/
theorem shiftToTargetExponent_bounds (m : Nat) (e : Int) (a : Accuracy) :
    (shiftToTargetExponent Format.binary64 m e a).1.mantissa < 2 ^ 53 ∧
      (shiftToTargetExponent Format.binary64 m e a).2 =
        max e (max (m.log2 + 1 + e - 53) (-1074)) := by
  have htarget : Format.binary64.targetExponent (totalExponent m e) =
      max (m.log2 + 1 + e - 53) (-1074) := rfl
  unfold shiftToTargetExponent shiftToExponent
  dsimp only
  rw [htarget, mantissa_shiftRight, mantissa_ofMantissaAndAccuracy]
  refine ⟨?_, by omega⟩
  generalize hk : (max ((m.log2 : Int) + 1 + e - 53) (-1074) - e).toNat = k
  have hlog : m.log2 + 1 ≤ 53 + k := by omega
  refine (Nat.div_lt_iff_lt_mul (Nat.two_pow_pos k)).2 ?_
  rw [← Nat.pow_add]
  exact Nat.lt_of_lt_of_le Nat.lt_log2_self (Nat.pow_le_pow_right (by decide) hlog)

/-- Rounding gives an exponent that is at most one larger than needed for 53 bits. -/
theorem fits_roundWithAccuracy {k : Int} {s : Sign} {m : Nat} {e : Int} {a : Accuracy} (b : Nat)
    (hm : m < 2 ^ b) (hb : 0 < b) (hk : -1073 ≤ k) (he : e + 1 ≤ k) (hbe : b + e ≤ k + 52) :
    Fits k (roundWithAccuracy Format.binary64 s m e a) := by
  obtain ⟨hmantissa, hexponent⟩ := shiftToTargetExponent_bounds m e a
  unfold roundWithAccuracy
  generalize shiftToTargetExponent Format.binary64 m e a = first at hmantissa hexponent
  obtain ⟨em, e₁⟩ := first
  dsimp only at hmantissa hexponent ⊢
  have hlog : m.log2 < b := by
    by_cases hzero : m = 0
    · rw [hzero]
      exact hb
    · exact (Nat.log2_lt hzero).2 hm
  -- rounding up can take one bit more
  have hrounded : em.roundedMantissa.log2 ≤ 53 := by
    have hle : em.roundedMantissa ≤ 2 ^ 53 := Nat.le_trans (roundedMantissa_le em) hmantissa
    by_cases hzero : em.roundedMantissa = 0
    · rw [hzero]
      decide
    · have := (Nat.log2_lt (k := 54) hzero).2 (by omega)
      omega
  have hfinal := (shiftToTargetExponent_bounds em.roundedMantissa e₁ .exact).2
  split
  · exact .zero
  · exact .finite (by omega)

/-! ### Operations -/

theorem isFiniteNumber_neg {x : Float} (hx : isFiniteNumber x = true) :
    isFiniteNumber (-x) = true := isFiniteNumber_pack (fits_unpack hx).neg

theorem isFiniteNumber_abs {x : Float} (hx : isFiniteNumber x = true) :
    isFiniteNumber x.abs = true := isFiniteNumber_pack (fits_unpack hx).abs

theorem unpack_zero : (0.0 : Float).toModel.unpack = .zero .positive := by rfl

theorem isFiniteNumber_sqrt {x : Float} (hx : isFiniteNumber x = true) (h : 0.0 ≤ x) :
    isFiniteNumber x.sqrt = true := by
  refine isFiniteNumber_pack ?_
  have hfits := fits_unpack hx
  have hle : UnpackedFloat.le (.zero .positive) x.toModel.unpack = true :=
    unpack_zero ▸ of_decide_eq_true h
  generalize hu : x.toModel.unpack = u at hfits hle
  cases hfits with
  | zero => exact .zero
  | @finite s m e hm he =>
    cases s with
    | negative => exact nomatch hle
    | positive =>
      obtain ⟨hmantissa, hmin⟩ := mantissa_unpack hu
      have htarget : Format.binary64.targetExponent ((totalExponent m e + 1).ediv 2) =
          max ((m.log2 + 1 + e + 1) / 2 - 53) (-1074) := rfl
      unfold UnpackedFloat.sqrt sqrtCore
      dsimp only
      rw [htarget, show e.ediv 2 = e / 2 from rfl]
      generalize htarget' :
        min (e / 2) (max (((m.log2 : Int) + 1 + e + 1) / 2 - 53) (-1074)) = target
      generalize hshift : (e - 2 * target).toNat = shift
      -- the root is not larger than the number itself
      have hroot : Nat.sqrt (m <<< shift) < 2 ^ (53 + shift) := by
        refine Nat.lt_of_le_of_lt (Nat.sqrt_le_self _) ?_
        rw [Nat.shiftLeft_eq, Nat.pow_add]
        exact Nat.mul_lt_mul_of_pos_right hmantissa (Nat.two_pow_pos shift)
      exact fits_roundWithAccuracy (53 + shift) hroot (by omega) (by decide) (by omega) (by omega)

theorem fits_mul_finite {k : Int} {s s' : Sign} {m m' : Nat} {e e' : Int} {hm : 0 < m}
    {hm' : 0 < m'} (b : Nat) (hproduct : m * m' < 2 ^ b) (hb : 0 < b) (hk : -1073 ≤ k)
    (he : e + e' + 1 ≤ k) (hbe : b + (e + e') ≤ k + 52) :
    Fits k (UnpackedFloat.mul Format.binary64 (.finite s m e hm) (.finite s' m' e' hm')) :=
  fits_roundWithAccuracy b hproduct hb hk he hbe

theorem fits_mul {k k₁ k₂ : Int} {x y : Float.Model} (hx : Fits k₁ x.unpack) (hy : Fits k₂ y.unpack)
    (hk : -1073 ≤ k) (h : k₁ + k₂ + 54 ≤ k) :
    Fits k (UnpackedFloat.mul Format.binary64 x.unpack y.unpack) := by
  generalize hux : x.unpack = u at hx
  generalize huy : y.unpack = v at hy
  cases hx with
  | zero => cases hy <;> exact .zero
  | finite he =>
    cases hy with
    | zero => exact .zero
    | finite he' =>
      have hproduct := Nat.mul_lt_mul'' (mantissa_unpack hux).1 (mantissa_unpack huy).1
      exact fits_mul_finite 106 hproduct (by decide) hk (by omega) (by omega)

/-- Whole numbers of 64 bits have small exponents. -/
theorem fits_ofNat {n : Nat} (hn : n < 2 ^ 64) :
    Fits 12 (UnpackedFloat.ofNat Format.binary64 n) := by
  unfold UnpackedFloat.ofNat UnpackedFloat.ofInt UnpackedFloat.normalize
  split
  · rename_i hnegative
    exact absurd hnegative (by simp [Int.compare_eq_lt])
  · exact .zero
  · unfold UnpackedFloat.round decreaseExponent
    dsimp only
    rw [Int.toNat_natCast]
    generalize (0 - Format.binary64.targetExponent (totalExponent n 0)).toNat = shift
    have hshift : n <<< shift < 2 ^ (64 + shift) := by
      rw [Nat.shiftLeft_eq, Nat.pow_add]
      exact Nat.mul_lt_mul_of_pos_right hn (Nat.two_pow_pos shift)
    exact fits_roundWithAccuracy (64 + shift) hshift (by omega) (by decide) (by omega) (by omega)

theorem fits_one : Fits (-52) (Float.exactlyRepresentablePowersOfTen[0]).toModel.unpack :=
  .finite (Int.le_refl (-52))

/-- Whole numbers are read like decimals without an exponent. -/
theorem fits_ofScientific {n : Nat} (hn : n < 2 ^ 64) :
    Fits 971 (UnpackedFloat.ofScientific Format.binary64 n 0) := by
  unfold UnpackedFloat.ofScientific
  split
  · exact .zero
  · have hshift : n <<< Format.binary64.mantissaBits * 10 ^ (0 : Int).toNat < 2 ^ 117 := by
      show n <<< 53 * 10 ^ 0 < 2 ^ 117
      rw [Nat.shiftLeft_eq]
      omega
    rw [if_neg (by decide)]
    split
    · exact .zero
    · rw [if_pos (Int.le_refl 0)]
      exact fits_mul_finite 117 hshift (by decide) (by decide) (by decide) (by decide)

theorem isFiniteNumber_ofNat {n : Nat} (hn : n < 2 ^ 64) :
    isFiniteNumber (Float.ofNat n) = true := by
  show isFiniteNumber (Float.ofScientific n false 0) = true
  unfold Float.ofScientific
  split
  · have hn' : n.toUInt64.toNat < 2 ^ 64 := UInt64.toNat_lt _
    have hleft : Fits 12 n.toUInt64.toFloat.toModel.unpack :=
      fits_unpack_pack (by decide) (by decide) (fits_ofNat hn')
    exact isFiniteNumber_pack (fits_mul hleft fits_one (by decide) (by decide))
  · exact isFiniteNumber_pack (fits_ofScientific hn)

theorem Binary.mantissa_lt {x : Float} {negative : Bool} {m : Nat} {q : Int}
    (h : Binary.ofFloat x = .finite negative m q) : m < 2 ^ 53 := by
  unfold Binary.ofFloat Binary.significandBase at h
  dsimp only at h
  split at h
  · split at h <;> exact nomatch h
  · split at h <;> cases h <;> omega

/-- The whole numbers next to a finite number are finite. -/
theorem RoundingMode.isFiniteNumber_round (mode : RoundingMode) {x : Float}
    (hx : isFiniteNumber x = true) : isFiniteNumber (mode.round x) = true := by
  unfold RoundingMode.round
  split
  · rename_i negative m q hbinary
    split
    · exact hx
    · have hm := Binary.mantissa_lt hbinary
      dsimp only
      generalize Nat.pow 2 (-q).toNat = unit
      have hwhole :
          m / unit + (if mode.movesAway negative (m % unit) unit then 1 else 0) < 2 ^ 64 := by
        have := Nat.div_le_self m unit
        split <;> omega
      split
      · exact isFiniteNumber_neg (isFiniteNumber_ofNat hwhole)
      · exact isFiniteNumber_ofNat hwhole
  · exact hx

end EntityFormulas
