import Mathlib
import Peripheral.Board.LineClock
import Peripheral.Proofs.TickRange

/-!
# The period of a clock

The tick rate of a machine is a positive number, so what it divides into is a number too. It is cut to
one tick where it is smaller, and a number that is no smaller has a whole part of one tick at least.

* `Ticks.IsNumber` : what is not NaN (`isNumber_pack`, `isNumber_div`, `isNumber_ofNat`);
* `full_or_least`, `one_le_roundToInt` : mantissas of doubles, and the whole parts of those from 1 on;
* `one_le_ofFloat` : **a double from 1 on is one tick at least**;
* `LineClock.one_le_periodOf` : so is the period of a clock.
-/

namespace Peripheral.Ticks
open Float.Model Float.Model.UnpackedFloat

/-! ## Numbers -/

def IsNumber (x : UnpackedFloat) : Prop := x ≠ .notANumber

theorem isNumber_roundWithAccuracy (spec : Format) (sign : Sign) (mantissa : Nat) (exponent : Int)
    (accuracy : Accuracy) : IsNumber (roundWithAccuracy spec sign mantissa exponent accuracy) := by
  unfold roundWithAccuracy
  dsimp only
  split
  · exact nofun
  · exact nofun

theorem unpackMantissa_pack {x : UnpackedFloat} (number : IsNumber x)
    (infinite : unpackExponent (UnpackedFloat.pack Format.binary64 x) = -1#11) :
    unpackMantissa (UnpackedFloat.pack Format.binary64 x) = 0#52 := by
  revert infinite
  fun_cases UnpackedFloat.pack with
  | case1 => exact absurd rfl number
  | case2 s => simp [packedInfinity]
  | case3 s => simp [packedZero]
  | case4 s m e positive biased large => simp [packedInfinity]
  | case5 s m e positive bits biased small normal =>
    rw [unpackExponent_packComponents]
    intro same
    have value : biased % 2048 = 2047 := by
      have value := congrArg BitVec.toNat same
      rwa [BitVec.toNat_ofNat] at value
    have below : ¬2048 ≤ biased + 1 := small
    omega
  | case6 s m e positive bits biased small subnormal =>
    rw [unpackExponent_packComponents]
    intro same
    exact absurd same (by decide : (0#11) ≠ -1#11)

theorem isNumber_pack {x : UnpackedFloat} (number : IsNumber x) :
    IsNumber (UnpackedFloat.unpack Format.binary64 (UnpackedFloat.pack Format.binary64 x)) := by
  unfold UnpackedFloat.unpack
  dsimp only
  split
  · rename_i infinite
    rw [if_pos (unpackMantissa_pack number infinite)]
    exact nofun
  · split
    · split
      · exact nofun
      · exact nofun
    · exact nofun

theorem isNumber_div {sign : Sign} {m : Nat} {e : Int} {positive : 0 < m} {y : UnpackedFloat}
    (number : IsNumber y) : IsNumber (UnpackedFloat.div Format.binary64 (.finite sign m e positive) y) := by
  cases y with
  | notANumber => exact absurd rfl number
  | infinity | zero => exact nofun
  | finite => exact isNumber_roundWithAccuracy _ _ _ _ _

theorem isNumber_mul {sign : Sign} {m : Nat} {e : Int} {positive : 0 < m} {x : UnpackedFloat}
    (number : IsNumber x) : IsNumber (UnpackedFloat.mul Format.binary64 x (.finite sign m e positive)) := by
  cases x with
  | notANumber => exact absurd rfl number
  | infinity | zero => exact nofun
  | finite => exact isNumber_roundWithAccuracy _ _ _ _ _

theorem unpack_one : (1 : Float).toModel.unpack = .finite .positive (2 ^ 52) (-52) (by decide) := by
  have bits : (1 : Float) = .ofModel (.pack (.finite .positive (2 ^ 52) (-52) (by decide))) := by
    decide +kernel
  rw [bits]
  rfl

theorem isNumber_ofNat {n : Nat} (small : n < 2 ^ 53) : IsNumber (Float.ofNat n).toModel.unpack := by
  have whole : IsNumber (UnpackedFloat.ofNat Format.binary64 n.toUInt64.toNat) := by
    unfold UnpackedFloat.ofNat UnpackedFloat.ofInt UnpackedFloat.normalize
    split
    · exact isNumber_roundWithAccuracy _ _ _ _ _
    · exact nofun
    · exact isNumber_roundWithAccuracy _ _ _ _ _
  have inside : 0 < Float.exactlyRepresentablePowersOfTen.size := by decide
  have power : Float.exactlyRepresentablePowersOfTen[0] = 1 :=
    (getElem!_pos _ 0 inside).symm.trans (by decide +kernel)
  have product : Float.ofNat n = n.toUInt64.toFloat * 1 := by
    unfold Float.ofNat
    show Float.ofScientific n false 0 = _
    unfold Float.ofScientific
    rw [dif_pos ⟨small, by decide⟩]
    show n.toUInt64.toFloat * Float.exactlyRepresentablePowersOfTen[0] = _
    rw [power]
  rw [product]
  show IsNumber (UnpackedFloat.unpack Format.binary64 (UnpackedFloat.pack Format.binary64
    (UnpackedFloat.mul Format.binary64 (UnpackedFloat.unpack Format.binary64
      (UnpackedFloat.pack Format.binary64 _)) (1 : Float).toModel.unpack)))
  rw [unpack_one]
  exact isNumber_pack (isNumber_mul (isNumber_pack whole))

/-! ## Whole parts -/

/-- An unpacked double has all bits of its mantissa, unless it is smaller than all that have. -/
theorem full_or_least {b : BitVec 64} {sign : Sign} {m : Nat} {e : Int} {positive : 0 < m}
    (unpacked : UnpackedFloat.unpack Format.binary64 b = .finite sign m e positive) :
    2 ^ 52 ≤ m ∨ e = -1074 := by
  unfold UnpackedFloat.unpack at unpacked
  dsimp only at unpacked
  split at unpacked
  · split at unpacked
    · cases unpacked
    · cases unpacked
  · split at unpacked
    · rename_i zero
      split at unpacked
      · cases unpacked
      · cases unpacked
        right
        rw [zero]
        rfl
    · cases unpacked
      left
      rw [BitVec.toNat_append, ← Nat.shiftLeft_add_eq_or_of_lt (BitVec.isLt _), Nat.shiftLeft_eq]
      exact Nat.le_add_right _ _

theorem mantissa_repeat (em : ExtendedMantissa) (k : Nat) :
    (k.repeat ExtendedMantissa.shiftRightOne em).mantissa = em.mantissa / 2 ^ k := by
  induction k with
  | zero => exact (Nat.div_one _).symm
  | succ k ih =>
    show (k.repeat ExtendedMantissa.shiftRightOne em).mantissa / 2 = _
    rw [ih, Nat.div_div_eq_div_mul, Nat.pow_succ]

theorem one_le_roundToInt {m : Nat} {e : Int} (full : 2 ^ 52 ≤ m) (least : -52 ≤ e) :
    1 ≤ roundToInt .positive m e := by
  have shift : (0 - (e - (e - 0).toNat)).toNat ≤ 52 := by omega
  have whole : 1 ≤ m <<< (e - 0).toNat / 2 ^ (0 - (e - (e - 0).toNat)).toNat := by
    rw [Nat.le_div_iff_mul_le (Nat.two_pow_pos _), Nat.one_mul, Nat.shiftLeft_eq]
    calc 2 ^ (0 - (e - (e - 0).toNat)).toNat ≤ 2 ^ 52 := Nat.pow_le_pow_right (by decide) shift
      _ ≤ m := full
      _ ≤ m * 2 ^ (e - 0).toNat := Nat.le_mul_of_pos_right _ (Nat.two_pow_pos _)
  unfold roundToInt decreaseExponent shiftToExponent
  show 1 ≤ ((Nat.repeat ExtendedMantissa.shiftRightOne _ _).mantissa : Int)
  rw [mantissa_repeat]
  exact Int.ofNat_le.2 whole

theorem unpack_top : ∃ m e p, (toFloat top).toModel.unpack = .finite .positive m e p := by
  have bits : toFloat top = .ofModel (.pack (.finite .positive 9007199250546688 (-22) (by decide))) := by
    decide +kernel
  rw [bits]
  exact ⟨_, _, _, rfl⟩

theorem one_le_clamp {i : Int} (least : 1 ≤ i) : 1 ≤ (clamp i).toInt := by
  rw [toInt_clamp]
  omega

theorem lt_iff {x y : Float} :
    x < y ↔ x.toModel.unpack.compare y.toModel.unpack = some .lt := by
  show decide (x.toModel.unpack.lt y.toModel.unpack = true) = true ↔ _
  rw [decide_eq_true_eq]
  exact beq_iff_eq

theorem one_le_ofFloat {x : Float} (number : IsNumber x.toModel.unpack) (least : ¬x < 1)
    (most : ¬toFloat top < x) : 1 ≤ (ofFloat x).toInt := by
  obtain ⟨m', e', p', top⟩ := unpack_top
  obtain ⟨sign, zero⟩ := unpack_zero
  rw [lt_iff, unpack_one] at least
  rw [lt_iff, top] at most
  unfold ofFloat
  cases value : x.toModel.unpack with
  | notANumber => exact absurd value number
  | infinity s =>
    rw [value] at least most
    cases s with
    | negative => exact absurd rfl least
    | positive => exact absurd rfl most
  | zero s =>
    rw [value] at least
    exact absurd rfl least
  | finite s m e p =>
    rw [value] at least
    cases s with
    | negative => exact absurd rfl least
    | positive =>
      have binade : 2 ^ 52 ≤ m ∧ -52 ≤ e := by
        have order : (compare e (-52)).then (compare m (2 ^ 52)) ≠ .lt := fun less =>
          least (congrArg some less)
        have exponent : -52 ≤ e := Int.not_lt.1 fun below => by
          rw [Int.compare_eq_lt.2 below] at order
          exact order rfl
        have full := full_or_least value
        exact ⟨full.resolve_right (by omega), exponent⟩
      have above : ¬x < 0 := by
        rw [lt_iff, value, zero]
        exact nofun
      rw [if_neg above]
      refine one_le_clamp ?_
      show 1 ≤ ((UInt64.ofNatClamp (x.toModel.unpack.toInt 0 _).toNat).toNat : Int)
      rw [value]
      have whole := one_le_roundToInt binade.1 binade.2
      show 1 ≤ ((UInt64.ofNatClamp (roundToInt .positive m e).toNat).toNat : Int)
      rw [UInt64.ofNatClamp]
      split
      · rw [UInt64.toNat_ofNatLT]
        omega
      · decide

end Peripheral.Ticks

namespace Peripheral.LineClock
open Ticks Float.Model

/-- Where the tick rate is a positive number, the period of a clock is one tick at least. -/
theorem one_le_periodOf {rate : Float} (finite : rate.isFinite) (positive : 0 < rate) (hz : UInt32) :
    1 ≤ (periodOf rate hz).toInt := by
  have one : (1 : Int32).toInt = 1 := rfl
  have most : 1 ≤ top.toInt := by decide
  unfold periodOf
  dsimp only
  split
  · exact Int.le_of_eq one.symm
  · rename_i least
    split
    · exact most
    · rename_i most
      refine one_le_ofFloat ?_ least most
      obtain ⟨sign, zero⟩ := unpack_zero
      rw [lt_iff, zero] at positive
      have small : (max hz 1).toNat < 2 ^ 53 :=
        Nat.lt_trans (max hz 1).toNat_lt (by decide)
      show IsNumber (UnpackedFloat.unpack Format.binary64 (UnpackedFloat.pack Format.binary64
        (UnpackedFloat.div Format.binary64 rate.toModel.unpack _)))
      cases value : rate.toModel.unpack with
      | notANumber | infinity =>
        replace finite : rate.toModel.unpack.isFinite = true := finite
        rw [value] at finite
        cases finite
      | zero =>
        rw [value] at positive
        cases positive
      | finite => exact isNumber_pack (isNumber_div (isNumber_ofNat small))

end Peripheral.LineClock
