/-!
# Byte strings

* `Bytes.padTo` : fill up with zeros;
* `Bytes.overwrite` : put bytes at an offset, filling a gap with zeros;
* `Bytes.allocatable` : the sizes that memory can be reserved for;
* `size_overwrite`, `getD_overwrite`, `getElem?_overwrite_of_le` : **what an overwritten byte string holds at
  every offset**, and behind the patch.
-/

namespace Peripheral

/-- The contents of a medium, or a piece of them. -/
abbrev Bytes := Array UInt8

namespace Bytes

def zeros (count : Nat) : Bytes := Array.replicate count 0

/-- Fill up with zeros to at least `size` bytes. -/
def padTo (size : Nat) (data : Bytes) : Bytes := data ++ zeros (size - data.size)

/-- Put `patch` at `offset`; a gap before it is filled with zeros. -/
def overwrite (data : Bytes) (offset : Nat) (patch : Bytes) : Bytes :=
  padTo offset (data.extract 0 offset) ++ patch ++ data.extract (offset + patch.size) data.size

/-- Sizes that memory can be reserved for. -/
def allocatable (size : Nat) : Bool := size < Nat.pow 2 50

/-! ## Bytes by offset -/

@[simp] theorem size_zeros (count : Nat) : (zeros count).size = count := by simp [zeros]

@[simp] theorem size_padTo (size : Nat) (data : Bytes) :
    (padTo size data).size = max size data.size := by
  simp only [padTo, Array.size_append, size_zeros]
  omega

theorem size_overwrite (data : Bytes) (offset : Nat) (patch : Bytes) :
    (overwrite data offset patch).size = max data.size (offset + patch.size) := by
  simp only [overwrite, Array.size_append, size_padTo, Array.size_extract]
  omega

theorem getD_padTo (size : Nat) (data : Bytes) (i : Nat) :
    (padTo size data).getD i 0 = data.getD i 0 := by
  simp only [padTo, zeros, Array.getD_eq_getD_getElem?, Array.getElem?_append]
  split
  · rfl
  · rename_i beyond
    rw [Array.getElem?_replicate, Array.getElem?_eq_none (Nat.le_of_not_lt beyond)]
    split <;> rfl

/-- The patch counts inside its range, the old bytes outside, and zeros where there were none. -/
theorem getD_overwrite (data : Bytes) (offset : Nat) (patch : Bytes) (i : Nat) :
    (overwrite data offset patch).getD i 0 =
      if offset ≤ i ∧ i < offset + patch.size then patch.getD (i - offset) 0
      else data.getD i 0 := by
  have front : (padTo offset (data.extract 0 offset)).size = offset := by
    simp only [size_padTo, Array.size_extract]
    omega
  have padded := getD_padTo offset (data.extract 0 offset) i
  simp only [Array.getD_eq_getD_getElem?] at padded
  simp only [overwrite, Array.getD_eq_getD_getElem?, Array.getElem?_append, Array.size_append,
    front]
  by_cases below : i < offset
  · have inside : i < offset + patch.size := by omega
    rw [if_pos inside, if_pos below, padded, if_neg (by omega), Array.getElem?_extract]
    split
    · rw [Nat.zero_add]
    · rw [Array.getElem?_eq_none (by omega)]
  · by_cases inside : i < offset + patch.size
    · have reached : offset ≤ i := by omega
      simp [inside, below, reached]
    · have past : offset + patch.size + (i - (offset + patch.size)) = i := by omega
      rw [if_neg inside, if_neg (by omega), Array.getElem?_extract, past]
      split
      · rfl
      · rw [Array.getElem?_eq_none (by omega)]

theorem getElem?_overwrite_of_le {data patch : Bytes} {offset i : Nat} (behind : offset + patch.size ≤ i) :
    (overwrite data offset patch)[i]? = data[i]? := by
  have front : (padTo offset (data.extract 0 offset) ++ patch).size = offset + patch.size := by
    simp only [Array.size_append, size_padTo, Array.size_extract]
    omega
  rw [overwrite, Array.getElem?_append_right (by omega), front, Array.getElem?_extract]
  split
  · rw [Nat.add_sub_cancel' behind]
  · rw [Array.getElem?_eq_none (by omega)]

end Bytes

end Peripheral
