/-
  Conduit/Proofs/Frame/Buffer.lean
  ================================
  **Nothing old is left in a buffer that is filled.**

  Whatever a buffer held when it was borrowed, writing over it from its start on leaves the
  written bytes in front; once they reach its size they are all of it.
-/
import Conduit.Frame.Buffer

namespace Conduit.Frame.Buffer

variable {b : Buffer} {place : Nat}

theorem toList_length (b : Buffer) : b.toList.length = b.size := by
  rw [toList, List.length_append, List.length_take, List.length_replicate]
  omega

/-- The bytes in front of a place inside the buffer. -/
theorem toList_take (hplace : place ≤ b.size) :
    b.toList.take place = b.start.take place ++ List.replicate (place - b.start.length) 0 := by
  have hzeros : min (place - min b.size b.start.length) (b.size - b.start.length)
      = place - b.start.length := by
    omega
  rw [toList, List.take_append, List.take_take, Nat.min_eq_left hplace, List.length_take,
    List.take_replicate, hzeros]

/-- **What is written stands behind what was there before it.** -/
theorem overwrite_take {bytes : List UInt8} (hfits : place + bytes.length ≤ b.size) :
    (b.overwrite place bytes).toList.take (place + bytes.length) = b.toList.take place ++ bytes := by
  have hplace : place ≤ b.size := by omega
  have hfront := toList_take hplace
  have hlength : (b.toList.take place).length = place := by
    rw [List.length_take, toList_length]
    exact Nat.min_eq_left hplace
  have hstart : (b.overwrite place bytes).start
      = b.toList.take place ++ bytes ++ b.start.drop (place + bytes.length) := by
    rw [hfront]
    rfl
  have hreaches : place + bytes.length ≤ (b.overwrite place bytes).start.length := by
    rw [hstart, List.length_append, List.length_append, hlength]
    exact Nat.le_add_right _ _
  have hsize : place + bytes.length ≤ (b.overwrite place bytes).size := hfits
  rw [toList_take hsize, Nat.sub_eq_zero_of_le hreaches, List.replicate_zero, List.append_nil, hstart]
  apply List.take_left'
  rw [List.length_append, hlength]

/-- **A buffer that is written up to its size holds nothing else.** -/
theorem overwrite_toList {bytes : List UInt8} (hall : place + bytes.length = b.size) :
    (b.overwrite place bytes).toList = b.toList.take place ++ bytes := by
  rw [← overwrite_take (Nat.le_of_eq hall), List.take_of_length_le]
  rw [toList_length]
  exact Nat.le_of_eq hall.symm

end Conduit.Frame.Buffer
