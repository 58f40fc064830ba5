/-
  EntityFormulas/Proofs/Decimal/Operands.lean
  ===========================================
  **Sums and differences with their operands exchanged.**

  A sum is the same number in either order (`float_add_comm`).  A difference may change its
  sign, and for zeros not even that, but nothing else (`UpToSign`); so it is finite
  in one order exactly when it is in the other (`isFiniteNumber_sub_comm`).
-/
import EntityFormulas.Proofs.Decimal.Finiteness

namespace EntityFormulas

open Float.Model Float.Model.UnpackedFloat

/-! ### Sums -/

theorem unpacked_add_comm (u v : UnpackedFloat) :
    UnpackedFloat.add Format.binary64 u v = UnpackedFloat.add Format.binary64 v u := by
  cases u with
  | notANumber => cases v <;> rfl
  | infinity s =>
    cases v with
    | infinity s' => cases s <;> cases s' <;> rfl
    | _ => rfl
  | zero s =>
    cases v with
    | zero s' => cases s <;> cases s' <;> rfl
    | _ => rfl
  | finite s m e hm =>
    cases v with
    | finite s' m' e' hm' =>
      simp only [UnpackedFloat.add, min_comm e' e]
      rw [Int.add_comm]
    | _ => rfl

theorem float_add_comm (x y : Float) : x + y = y + x :=
  congrArg (fun u => Float.ofModel (.pack u)) (unpacked_add_comm x.toModel.unpack y.toModel.unpack)

/-! ### Differences -/

/-- The same number except for its sign. -/
inductive UpToSign : UnpackedFloat → UnpackedFloat → Prop
  | notANumber : UpToSign .notANumber .notANumber
  | infinity (s s' : Sign) : UpToSign (.infinity s) (.infinity s')
  | zero (s s' : Sign) : UpToSign (.zero s) (.zero s')
  | finite (s s' : Sign) (m : Nat) (e : Int) (hm : 0 < m) :
      UpToSign (.finite s m e hm) (.finite s' m e hm)

theorem UpToSign.exponent_pack {u v : UnpackedFloat} (h : UpToSign u v) :
    unpackExponent (UnpackedFloat.pack Format.binary64 u) =
      unpackExponent (UnpackedFloat.pack Format.binary64 v) := by
  cases h with
  | notANumber => rfl
  | infinity s s' =>
    simp only [UnpackedFloat.pack, packedInfinity, unpackExponent_packComponents]
  | zero s s' =>
    simp only [UnpackedFloat.pack, packedZero, unpackExponent_packComponents]
  | finite s s' m e hm =>
    simp only [UnpackedFloat.pack]
    split
    · simp only [packedInfinity, unpackExponent_packComponents]
    · split <;> simp only [unpackExponent_packComponents]

theorem UpToSign.isFiniteNumber_pack {u v : UnpackedFloat} (h : UpToSign u v) :
    isFiniteNumber (.ofModel (.pack u)) = isFiniteNumber (.ofModel (.pack v)) := by
  rw [Bool.eq_iff_iff, isFiniteNumber_iff, isFiniteNumber_iff]
  change unpackExponent (UnpackedFloat.pack Format.binary64 u) ≠ _ ↔
    unpackExponent (UnpackedFloat.pack Format.binary64 v) ≠ _
  rw [h.exponent_pack]

theorem round_upToSign (s s' : Sign) (m : Nat) (e : Int) :
    UpToSign (UnpackedFloat.round Format.binary64 s m e)
      (UnpackedFloat.round Format.binary64 s' m e) := by
  simp only [UnpackedFloat.round, roundWithAccuracy]
  split
  · exact .zero s s'
  · exact .finite s s' _ _ _

theorem normalize_neg_upToSign (m : Int) (e : Int) (s : Sign) :
    UpToSign (UnpackedFloat.normalize Format.binary64 (-m) e s)
      (UnpackedFloat.normalize Format.binary64 m e s) := by
  rcases lt_trichotomy m 0 with hm | rfl | hm
  · have hneg : compare (-m) 0 = .gt := compare_gt_iff_gt.2 (by omega)
    simp only [UnpackedFloat.normalize, hneg, compare_lt_iff_lt.2 hm]
    exact round_upToSign _ _ _ _
  · exact .zero s s
  · have hneg : compare (-m) 0 = .lt := compare_lt_iff_lt.2 (by omega)
    simp only [UnpackedFloat.normalize, hneg, compare_gt_iff_gt.2 hm, Int.neg_neg]
    exact round_upToSign _ _ _ _

theorem unpacked_sub_upToSign (u v : UnpackedFloat) :
    UpToSign (UnpackedFloat.sub Format.binary64 u v) (UnpackedFloat.sub Format.binary64 v u) := by
  cases u with
  | notANumber => cases v <;> exact .notANumber
  | infinity s =>
    cases v with
    | notANumber => exact .notANumber
    | infinity s' => cases s <;> cases s' <;> constructor
    | _ => exact .infinity _ _
  | zero s =>
    cases v with
    | notANumber => exact .notANumber
    | infinity s' => exact .infinity _ _
    | zero s' => cases s <;> cases s' <;> constructor
    | finite s' m' e' hm' => exact .finite _ _ _ _ _
  | finite s m e hm =>
    cases v with
    | notANumber => exact .notANumber
    | infinity s' => exact .infinity _ _
    | zero s' => exact .finite _ _ _ _ _
    | finite s' m' e' hm' =>
      simp only [UnpackedFloat.sub, min_comm e' e]
      rw [← Int.neg_sub]
      exact normalize_neg_upToSign _ _ _

/-- A difference is finite in either order or in none. -/
theorem isFiniteNumber_sub_comm (x y : Float) : isFiniteNumber (x - y) = isFiniteNumber (y - x) :=
  (unpacked_sub_upToSign x.toModel.unpack y.toModel.unpack).isFiniteNumber_pack

end EntityFormulas
