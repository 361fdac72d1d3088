import Peripheral.Ticks

/-!
# Tick counts as integers

Tick counts are read as integers; their sums and differences are those of the integers as long as
these stay inside the range.

* `Ticks.InRange` : integers that are tick counts;
* `toInt_add`, `toInt_sub`, `toInt_addSat` : exact sums and differences;
* `toInt_max_zero` : requests for a negative number of ticks count as zero;
* `ofFloat_zero_mul` : no microseconds are no ticks, at any rate.
-/

namespace Peripheral.Ticks

def InRange (i : Int) : Prop := Int32.minValue.toInt ≤ i ∧ i ≤ Int32.maxValue.toInt

instance (i : Int) : Decidable (InRange i) :=
  inferInstanceAs (Decidable (Int32.minValue.toInt ≤ i ∧ i ≤ Int32.maxValue.toInt))

theorem inRange_iff {i : Int} : InRange i ↔ -2147483648 ≤ i ∧ i ≤ 2147483647 := by
  have least : Int32.minValue.toInt = -2147483648 := by decide
  have greatest : Int32.maxValue.toInt = 2147483647 := by decide
  unfold InRange
  omega

theorem inRange_toInt (t : Int32) : InRange t.toInt := ⟨t.minValue_le_toInt, t.toInt_le⟩

theorem toInt_add {a b : Int32} (h : InRange (a.toInt + b.toInt)) :
    (a + b).toInt = a.toInt + b.toInt := by
  rw [inRange_iff] at h
  rw [Int32.toInt_add]
  apply Int.bmod_eq_of_le <;> omega

theorem toInt_sub {a b : Int32} (h : InRange (a.toInt - b.toInt)) :
    (a - b).toInt = a.toInt - b.toInt := by
  rw [inRange_iff] at h
  rw [Int32.toInt_sub]
  apply Int.bmod_eq_of_le <;> omega

/-- A difference of tick counts is no less than the true one where that does not lie above the
range. -/
theorem toInt_sub_ge {a b : Int32} (nonneg : 0 ≤ b.toInt) : a.toInt - b.toInt ≤ (a - b).toInt := by
  have low := inRange_iff.1 (inRange_toInt a)
  have high := inRange_iff.1 (inRange_toInt b)
  by_cases fits : InRange (a.toInt - b.toInt)
  · exact Int.le_of_eq (toInt_sub fits).symm
  · rw [inRange_iff] at fits
    have least := inRange_iff.1 (inRange_toInt (a - b))
    omega

theorem toInt_clamp (i : Int) : (clamp i).toInt = max (-2147483648) (min 2147483647 i) := by
  have least : Int32.minValue.toInt = -2147483648 := by decide
  have greatest : Int32.maxValue.toInt = 2147483647 := by decide
  unfold clamp
  rw [Int32.toInt_ofInt_of_le] <;> omega

/-- A sum that is held inside the range is off only on the far side of one of its ends. -/
theorem toInt_addSat (a b : Int32) :
    (addSat a b).toInt = max (-2147483648) (min 2147483647 (a.toInt + b.toInt)) := toInt_clamp _

theorem toInt_addSat_of_inRange {a b : Int32} (h : InRange (a.toInt + b.toInt)) :
    (addSat a b).toInt = a.toInt + b.toInt := by
  rw [inRange_iff] at h
  rw [toInt_addSat]
  omega

theorem toInt_addSat_le {a b : Int32} (nonneg : 0 ≤ b.toInt) :
    (addSat a b).toInt ≤ a.toInt + b.toInt := by
  have least := (inRange_iff.1 (inRange_toInt a)).1
  rw [toInt_addSat]
  omega

theorem toInt_max_zero (t : Int32) : (max t 0).toInt = max t.toInt 0 := by
  change (if t ≤ 0 then (0 : Int32) else t).toInt = max t.toInt 0
  have zero : (0 : Int32).toInt = 0 := by decide
  split
  · rename_i h
    rw [Int32.le_iff_toInt_le] at h
    omega
  · rename_i h
    rw [Int32.le_iff_toInt_le] at h
    omega

/-! ## No time is no ticks -/

open Float.Model in
theorem unpack_zero : ∃ sign, (0 : Float).toModel.unpack = .zero sign := by
  have bits : (0 : Float) = .ofModel (.pack (.zero .positive)) := by decide +kernel
  rw [bits]
  show ∃ sign, UnpackedFloat.unpack Format.binary64
    (UnpackedFloat.packComponents Format.binary64 .positive 0 0) = .zero sign
  let packed := UnpackedFloat.packComponents Format.binary64 .positive 0 0
  have exponent : UnpackedFloat.unpackExponent packed = 0 := UnpackedFloat.unpackExponent_packComponents
  have mantissa : UnpackedFloat.unpackMantissa packed = 0 := UnpackedFloat.unpackMantissa_packComponents
  have finite : ¬UnpackedFloat.unpackExponent packed = -BitVec.ofNat _ 1 := by
    rw [exponent]
    decide
  refine ⟨.ofBitVec (UnpackedFloat.unpackSign packed), ?_⟩
  unfold UnpackedFloat.unpack
  exact (if_neg finite).trans ((if_pos exponent).trans (dif_pos mantissa))

open Float.Model in
theorem zero_mul_cases (x : Float) :
    ∃ y ∈ [UnpackedFloat.notANumber, .zero .positive, .zero .negative],
      0 * x = .ofModel (.pack y) := by
  obtain ⟨sign, zero⟩ := unpack_zero
  have signed : ∀ sign, UnpackedFloat.zero sign ∈
      [UnpackedFloat.notANumber, .zero .positive, .zero .negative] := by
    intro sign
    cases sign with
    | positive => exact .tail _ (.head _)
    | negative => exact .tail _ (.tail _ (.head _))
  show ∃ y ∈ _, Float.ofModel (.pack (UnpackedFloat.mul Format.binary64
    (0 : Float).toModel.unpack x.toModel.unpack)) = _
  rw [zero]
  cases x.toModel.unpack with
  | infinity sign' => exact ⟨.notANumber, .head _, rfl⟩
  | notANumber => exact ⟨.notANumber, .head _, rfl⟩
  | zero sign' => exact ⟨.zero (sign * sign'), signed _, rfl⟩
  | finite sign' mantissa exponent positive => exact ⟨.zero (sign * sign'), signed _, rfl⟩

theorem ofFloat_zero_mul (rate : Float) :
    ¬0 * rate / 1000000 > toFloat top ∧ ofFloat (0 * rate / 1000000) = 0 := by
  obtain ⟨y, among, product⟩ := zero_mul_cases rate
  rw [product]
  simp only [List.mem_cons, List.not_mem_nil, or_false] at among
  rcases among with rfl | rfl | rfl
  · decide +kernel
  · decide +kernel
  · decide +kernel

theorem nonnegative_nonnegative (x : Float) : nonnegative (nonnegative x) = nonnegative x := by
  unfold nonnegative
  split
  · rfl
  · exact if_neg (by decide +kernel)

end Peripheral.Ticks
