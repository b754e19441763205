import RegisterLink.Proofs.Digits

/-!
# The bits of a message

A message is also a row of bits, in the order in which a checksum takes them in:
byte after byte, each from its high end.  Shifting a vector moves its row along
by one place, and joining or combining vectors joins or combines their rows.
-/

namespace RegisterLink

namespace Bits

/-- The bits of a vector, from the high end. -/
def ofVector {n : Nat} (vector : BitVec n) : List Bool :=
  (List.range n).map vector.getMsbD

def ofBytes (data : List Byte) : List Bool :=
  data.flatMap ofVector

variable {n m : Nat}

@[simp] theorem length_ofVector (vector : BitVec n) : (ofVector vector).length = n := by
  rw [ofVector, List.length_map, List.length_range]

theorem ofVector_injective : Function.Injective (ofVector (n := n)) := by
  intro first second same
  apply BitVec.eq_of_getMsbD_eq
  intro i inside
  exact List.map_inj_left.mp same i (List.mem_range.mpr inside)

theorem ofBytes_cons (byte : Byte) (data : List Byte) :
    ofBytes (byte :: data) = ofVector byte ++ ofBytes data := List.flatMap_cons

theorem ofBytes_append (first second : List Byte) :
    ofBytes (first ++ second) = ofBytes first ++ ofBytes second := List.flatMap_append

@[simp] theorem length_ofBytes (data : List Byte) : (ofBytes data).length = 8 * data.length := by
  induction data with
  | nil => rfl
  | cons byte data ih =>
      rw [ofBytes_cons, List.length_append, length_ofVector, ih, List.length_cons]
      omega

theorem length_ofBytes_eq {first second : List Byte} (same : first.length = second.length) :
    (ofBytes first).length = (ofBytes second).length := by
  rw [length_ofBytes, length_ofBytes, same]

/-- What a shift lets fall out stands in front of what it keeps. -/
theorem msb_cons_ofVector_shiftLeft (vector : BitVec n) :
    vector.msb :: ofVector (vector <<< 1) = ofVector vector ++ [false] := by
  have behind : vector.getMsbD n = false := BitVec.getMsbD_of_ge vector n (Nat.le_refl n)
  have moved : (vector <<< 1).getMsbD = vector.getMsbD ∘ Nat.succ := by
    funext i
    exact vector.getMsbD_shiftLeft 1
  calc vector.msb :: ofVector (vector <<< 1)
    _ = (List.range (n + 1)).map vector.getMsbD := by
        rw [ofVector, moved, List.range_succ_eq_map, List.map_cons, List.map_map, BitVec.msb]
    _ = ofVector vector ++ [false] := by
        rw [List.range_succ, List.map_append, List.map_singleton, behind, ofVector]

theorem ofVector_append (high : BitVec n) (low : BitVec m) :
    ofVector (high ++ low) = ofVector high ++ ofVector low := by
  rw [ofVector, List.range_add, List.map_append, List.map_map]
  congr 1
  · apply List.map_congr_left
    intro i inside
    rw [BitVec.getMsbD_append, if_neg (Nat.not_le_of_lt (List.mem_range.mp inside))]
  · apply List.map_congr_left
    intro i _
    rw [Function.comp_apply, BitVec.getMsbD_append, if_pos (Nat.le_add_right n i),
      Nat.add_sub_cancel_left]

theorem ofVector_xor (first second : BitVec n) :
    ofVector (first ^^^ second) =
      List.zipWith (· ^^ ·) (ofVector first) (ofVector second) := by
  rw [ofVector, ofVector, ofVector, List.zipWith_map, List.zipWith_self]
  simp

theorem ofBytes_xor {first second : List Byte} (same : first.length = second.length) :
    ofBytes (List.zipWith (· ^^^ ·) first second) =
      List.zipWith (· ^^ ·) (ofBytes first) (ofBytes second) := by
  induction first generalizing second with
  | nil => rfl
  | cons byte first ih =>
      cases second with
      | nil => cases same
      | cons other second =>
          rw [List.zipWith_cons_cons, ofBytes_cons, ofBytes_cons, ofBytes_cons, ofVector_xor,
            ih (Nat.succ.inj same), List.zipWith_append]
          rw [length_ofVector, length_ofVector]

/-- Two bytes with the high one first stand for the vector that they were made from. -/
theorem ofBytes_big (vector : BitVec 16) :
    ofBytes (ByteOrder.big.bytes 2 vector.toNat) = ofVector vector := by
  have joined : (BitVec.ofNat 8 (vector.toNat / 256) ++ BitVec.ofNat 8 vector.toNat : BitVec 16) =
      vector := by
    have bound := vector.isLt
    apply BitVec.eq_of_toNat_eq
    rw [BitVec.toNat_append, ← Nat.shiftLeft_add_eq_or_of_lt (BitVec.isLt _), Nat.shiftLeft_eq,
      BitVec.toNat_ofNat, BitVec.toNat_ofNat]
    omega
  change ofVector _ ++ (ofVector _ ++ []) = _
  rw [List.append_nil, ← ofVector_append, joined]

end Bits

end RegisterLink
