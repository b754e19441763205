import RegisterLink.Proofs.Digits
import RegisterLink.Width

/-!
# Values in bytes

The bytes of a value hold the part of it that the width covers, no more and no
less, whether the value was cut to the width before or not.
-/

namespace RegisterLink

namespace Width

theorem bytes_le (width : Width) : width.bytes ≤ 4 := by
  cases width <;> decide

theorem toNat_mask (width : Width) : width.mask.toNat = 2 ^ width.bits - 1 := by
  cases width <;> rfl

theorem toNat_and_mask (width : Width) (value : Word) :
    (value &&& width.mask).toNat = value.toNat % 256 ^ width.bytes := by
  have digits : 256 ^ width.bytes = 2 ^ width.bits := by cases width <;> rfl
  rw [BitVec.toNat_and, toNat_mask, Nat.and_two_pow_sub_one_eq_mod, digits]

theorem toNat_and_mask_lt (width : Width) (value : Word) :
    (value &&& width.mask).toNat < 2 ^ width.bits := by
  have digits : 256 ^ width.bytes = 2 ^ width.bits := by cases width <;> rfl
  rw [toNat_and_mask, ← digits]
  exact Nat.mod_lt _ (Nat.pow_pos (by decide))

/-- Reading back the bytes of a value gives the part of it that the width covers. -/
theorem ofBytes_toBytes_append (width : Width) (value : Word) (rest : List Byte) :
    width.ofBytes (width.toBytes value ++ rest) = value &&& width.mask := by
  apply BitVec.eq_of_toNat_eq
  rw [ofBytes, List.take_left' (length_toBytes width value), toBytes, ofLittleEndian_littleEndian,
    BitVec.toNat_ofNat, toNat_and_mask]
  exact Nat.mod_eq_of_lt (Nat.lt_of_le_of_lt (Nat.mod_le _ _) value.isLt)

theorem ofBytes_toBytes (width : Width) (value : Word) :
    width.ofBytes (width.toBytes value) = value &&& width.mask := by
  rw [← ofBytes_toBytes_append width value [], List.append_nil]

/-- The bytes of a value that was read from bytes are the ones that it was read from. -/
theorem toBytes_ofBytes_take {width : Width} {content : List Byte}
    (enough : width.bytes ≤ content.length) :
    width.toBytes (width.ofBytes content) = content.take width.bytes := by
  have size : (content.take width.bytes).length = width.bytes := by
    rw [List.length_take, Nat.min_eq_left enough]
  have small : ofLittleEndian (content.take width.bytes) < 2 ^ 32 :=
    Nat.lt_of_lt_of_le (ofLittleEndian_lt _)
      (Nat.pow_le_pow_right (n := 256) (by decide) (size ▸ width.bytes_le))
  have digits := littleEndian_ofLittleEndian (content.take width.bytes)
  rw [size] at digits
  rw [toBytes, ofBytes, BitVec.toNat_ofNat, Nat.mod_eq_of_lt small, digits]

theorem toBytes_ofBytes {width : Width} {content : List Byte}
    (whole : content.length = width.bytes) : width.toBytes (width.ofBytes content) = content := by
  rw [toBytes_ofBytes_take (Nat.le_of_eq whole.symm), ← whole, List.take_length]

theorem and_mask_word (value : Word) : value &&& word.mask = value := by
  rw [mask_word, BitVec.and_allOnes]

/-- The bytes of a whole word hold all of it. -/
theorem toBytes_word_inj {first second : Word} :
    word.toBytes first = word.toBytes second ↔ first = second := by
  constructor
  · intro same
    rw [← and_mask_word first, ← and_mask_word second, ← ofBytes_toBytes, same, ofBytes_toBytes]
  · exact congrArg _

/-- Bits beyond the width do not show in the bytes. -/
theorem toBytes_and_mask (width : Width) (value : Word) :
    width.toBytes (value &&& width.mask) = width.toBytes value := by
  have digits := littleEndian_ofLittleEndian (width.toBytes value)
  rw [length_toBytes, toBytes, ofLittleEndian_littleEndian] at digits
  rw [toBytes, toNat_and_mask, digits, toBytes]

end Width

end RegisterLink
