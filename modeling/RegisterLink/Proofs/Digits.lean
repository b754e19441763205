import Mathlib.Algebra.Group.Nat.Defs
import RegisterLink.Word

/-!
# Base-256 digits

The digits of a number lose only what lies above them.
-/

namespace RegisterLink

theorem ofLittleEndian_lt (bs : List Byte) : ofLittleEndian bs < 256 ^ bs.length := by
  induction bs with
  | nil => simp [ofLittleEndian]
  | cons b bs ih =>
      have := b.isLt
      simp only [ofLittleEndian, List.length_cons, Nat.pow_succ]
      omega

/-- Equally many digits of one number are the same digits. -/
theorem ofLittleEndian_inj {first second : List Byte} (size : first.length = second.length)
    (same : ofLittleEndian first = ofLittleEndian second) : first = second := by
  rw [← littleEndian_ofLittleEndian first, ← littleEndian_ofLittleEndian second, size, same]

/-- Digits lost to a short count are the high ones. -/
theorem ofLittleEndian_littleEndian (count n : Nat) :
    ofLittleEndian (littleEndian count n) = n % 256 ^ count := by
  induction count generalizing n with
  | zero => simp [littleEndian, ofLittleEndian, Nat.mod_one]
  | succ count ih =>
      simp only [littleEndian, ofLittleEndian, ih, BitVec.toNat_ofNat]
      change n % 256 + 256 * (n / 256 % 256 ^ count) = n % 256 ^ (count + 1)
      rw [Nat.pow_succ, Nat.mul_comm (256 ^ count) 256, Nat.mod_mul]

theorem getElem?_littleEndian (count n i : Nat) :
    (littleEndian count n)[i]? =
      if i < count then some (BitVec.ofNat 8 (n / 256 ^ i)) else none := by
  induction count generalizing n i with
  | zero => rfl
  | succ count ih =>
      cases i with
      | zero => simp [littleEndian]
      | succ i =>
          rw [littleEndian, List.getElem?_cons_succ, ih, Nat.div_div_eq_div_mul, Nat.pow_succ,
            Nat.mul_comm 256]
          simp only [Nat.succ_lt_succ_iff]

namespace ByteOrder

theorem number_bytes (order : ByteOrder) (count n : Nat) :
    order.number (order.bytes count n) = n % 256 ^ count := by
  cases order <;> simp [number, bytes, ofLittleEndian_littleEndian]

theorem bytes_number (order : ByteOrder) (bs : List Byte) :
    order.bytes bs.length (order.number bs) = bs := by
  cases order with
  | little => exact littleEndian_ofLittleEndian bs
  | big =>
      have digits := littleEndian_ofLittleEndian bs.reverse
      rw [List.length_reverse] at digits
      rw [bytes, number, digits, List.reverse_reverse]

theorem number_lt (order : ByteOrder) (bs : List Byte) : order.number bs < 256 ^ bs.length := by
  cases order with
  | little => exact ofLittleEndian_lt bs
  | big =>
      have bound := ofLittleEndian_lt bs.reverse
      rwa [List.length_reverse] at bound

end ByteOrder

end RegisterLink
