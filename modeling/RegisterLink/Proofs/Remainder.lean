import Mathlib.Algebra.CharP.Two
import Mathlib.Algebra.Field.ZMod
import Mathlib.Algebra.Polynomial.Div
import Mathlib.Tactic.ComputeDegree
import Mathlib.Tactic.LinearCombination
import RegisterLink.Envelope
import RegisterLink.Proofs.Bits

/-!
# Checksums as remainders

Bits are the coefficients of a polynomial over the field of two elements, and a
register of sixteen bits is one of degree below sixteen.  A step of the register
multiplies it by the indeterminate and takes the generator off if the degree has
become too high; a byte is taken in as eight such steps.  So the checksum of some
data is what division by the generator leaves of it.
-/

namespace RegisterLink

open Polynomial

namespace Bits

/-- A bit as a number modulo two. -/
def coefficient (bit : Bool) : ZMod 2 := if bit then 1 else 0

theorem coefficient_injective : Function.Injective coefficient := by decide

theorem coefficient_xor (first second : Bool) :
    coefficient (first ^^ second) = coefficient first + coefficient second := by
  cases first <;> cases second <;> decide

/-- A row of bits as the coefficients of a polynomial, that of the highest power first. -/
noncomputable def toPolynomial : List Bool → (ZMod 2)[X]
  | [] => 0
  | bit :: bits => monomial bits.length (coefficient bit) + toPolynomial bits

theorem toPolynomial_append (first second : List Bool) :
    toPolynomial (first ++ second) =
      toPolynomial first * X ^ second.length + toPolynomial second := by
  induction first with
  | nil => rw [List.nil_append, toPolynomial, zero_mul, zero_add]
  | cons bit first ih =>
      rw [List.cons_append, toPolynomial, toPolynomial, ih, List.length_append, add_mul,
        monomial_mul_X_pow, add_assoc]

theorem toPolynomial_xor {first second : List Bool} (same : first.length = second.length) :
    toPolynomial (List.zipWith (· ^^ ·) first second) =
      toPolynomial first + toPolynomial second := by
  induction first generalizing second with
  | nil =>
      rw [List.eq_nil_of_length_eq_zero same.symm, toPolynomial, add_zero]
      rfl
  | cons bit first ih =>
      cases second with
      | nil => cases same
      | cons other second =>
          have shorter : first.length = second.length := Nat.succ.inj same
          rw [List.zipWith_cons_cons, toPolynomial, toPolynomial, toPolynomial, ih shorter,
            List.length_zipWith, shorter, Nat.min_self, coefficient_xor, map_add]
          exact add_add_add_comm _ _ _ _

theorem degree_toPolynomial_lt (bits : List Bool) :
    (toPolynomial bits).degree < bits.length := by
  induction bits with
  | nil => exact degree_zero.trans_lt (WithBot.bot_lt_coe 0)
  | cons bit bits ih =>
      have longer : (bits.length : WithBot ℕ) < (bit :: bits).length :=
        Nat.cast_lt.mpr (Nat.lt_succ_self _)
      apply (degree_add_le _ _).trans_lt
      exact max_lt ((degree_monomial_le _ _).trans_lt longer) (ih.trans longer)

theorem coeff_toPolynomial_cons (bit : Bool) (bits : List Bool) :
    (toPolynomial (bit :: bits)).coeff bits.length = coefficient bit := by
  rw [toPolynomial, coeff_add, coeff_monomial_same,
    coeff_eq_zero_of_degree_lt (degree_toPolynomial_lt bits), add_zero]

/-- Rows of one length are told apart by their polynomials. -/
theorem toPolynomial_inj {first second : List Bool} (length : first.length = second.length)
    (same : toPolynomial first = toPolynomial second) : first = second := by
  induction first generalizing second with
  | nil => exact (List.eq_nil_of_length_eq_zero length.symm).symm
  | cons bit first ih =>
      cases second with
      | nil => cases length
      | cons other second =>
          have shorter : first.length = second.length := Nat.succ.inj length
          have heads := congrArg (coeff · first.length) same
          simp only [coeff_toPolynomial_cons] at heads
          rw [shorter, coeff_toPolynomial_cons] at heads
          obtain rfl := coefficient_injective heads
          rw [toPolynomial, toPolynomial, shorter] at same
          rw [ih shorter (add_left_cancel same)]

variable {n m : Nat}

/-- The polynomial of a vector: its bit `i` is the coefficient of the power `i`. -/
noncomputable def residue (vector : BitVec n) : (ZMod 2)[X] := toPolynomial (ofVector vector)

theorem residue_xor (first second : BitVec n) :
    residue (first ^^^ second) = residue first + residue second := by
  rw [residue, ofVector_xor, toPolynomial_xor]
  · rfl
  · rw [length_ofVector, length_ofVector]

theorem residue_zero : residue 0#n = 0 := by
  have doubled := residue_xor 0#n 0#n
  rw [BitVec.xor_self] at doubled
  exact left_eq_add.mp doubled

theorem residue_injective : Function.Injective (residue (n := n)) := by
  intro first second same
  apply ofVector_injective
  exact toPolynomial_inj ((length_ofVector _).trans (length_ofVector _).symm) same

theorem degree_residue_lt (vector : BitVec n) : (residue vector).degree < n := by
  have bound := degree_toPolynomial_lt (ofVector vector)
  rwa [length_ofVector] at bound

theorem residue_append (high : BitVec n) (low : BitVec m) :
    residue (high ++ low) = residue high * X ^ m + residue low := by
  rw [residue, ofVector_append, toPolynomial_append, length_ofVector]
  rfl

/-- A shift multiplies by the indeterminate, but for the bit that falls out. -/
theorem residue_shiftLeft (vector : BitVec n) :
    monomial n (coefficient vector.msb) + residue (vector <<< 1) = residue vector * X := by
  have moved := congrArg toPolynomial (msb_cons_ofVector_shiftLeft vector)
  rw [toPolynomial, length_ofVector, toPolynomial_append] at moved
  have nothing : toPolynomial [false] = 0 := by simp [toPolynomial, coefficient]
  rwa [nothing, add_zero, List.length_singleton, pow_one] at moved

end Bits

namespace Checksum

open Bits

noncomputable def generator : (ZMod 2)[X] := X ^ 16 + X ^ 12 + X ^ 5 + 1

theorem generator_monic : generator.Monic := by
  unfold generator
  monicity!

theorem degree_generator : generator.degree = 16 := by
  unfold generator
  compute_degree!

theorem residue_polynomial : residue polynomial = X ^ 12 + X ^ 5 + 1 := by
  have bits : ofVector polynomial = [false, false, false, true, false, false, false, false,
      false, false, true, false, false, false, false, true] := by decide
  rw [residue, bits]
  simp [toPolynomial, coefficient, ← X_pow_eq_monomial, add_assoc]

/-- A step of the register multiplies by the indeterminate, up to the generator. -/
theorem residue_shift (register : BitVec 16) :
    residue (shift register) =
      residue register * X + C (coefficient register.msb) * generator := by
  have moved := residue_shiftLeft register
  rw [shift]
  cases falls : register.msb with
  | false =>
      rw [falls, coefficient, if_neg Bool.false_ne_true, map_zero, zero_add] at moved
      rw [if_neg Bool.false_ne_true, coefficient, if_neg Bool.false_ne_true, C_0, zero_mul,
        add_zero, moved]
  | true =>
      have two : (2 : (ZMod 2)[X]) = 0 := CharTwo.two_eq_zero
      rw [falls, coefficient, if_pos rfl, ← X_pow_eq_monomial] at moved
      rw [if_pos rfl, residue_xor, residue_polynomial, coefficient, if_pos rfl, C_1, generator,
        ← moved]
      linear_combination -X ^ 16 * two

/-- Some steps of the register multiply by as high a power of the indeterminate. -/
theorem residue_shifts (count : Nat) (register : BitVec 16) :
    ∃ quotient, residue (Nat.repeat shift count register) =
      residue register * X ^ count + generator * quotient := by
  induction count with
  | zero => exact ⟨0, by rw [Nat.repeat, pow_zero, mul_one, mul_zero, add_zero]⟩
  | succ count ih =>
      obtain ⟨quotient, shifted⟩ := ih
      refine ⟨quotient * X + C (coefficient (Nat.repeat shift count register).msb), ?_⟩
      rw [Nat.repeat, residue_shift, shifted]
      ring

/-- A byte enters at the high end. -/
theorem setWidth_shiftLeft_eq (byte : Byte) : byte.setWidth 16 <<< 8 = byte ++ 0#8 := by
  rw [BitVec.append_def, BitVec.shiftLeftZeroExtend_eq]
  simp

/-- A byte is taken in eight places up, and lifts what was there by as many. -/
theorem residue_absorb (register : BitVec 16) (byte : Byte) :
    ∃ quotient, residue (absorb register byte) =
      residue register * X ^ 8 + residue byte * X ^ 16 + generator * quotient := by
  obtain ⟨quotient, shifted⟩ := residue_shifts 8 (register ^^^ (byte.setWidth 16 <<< 8))
  refine ⟨quotient, ?_⟩
  rw [absorb, shifted, residue_xor, setWidth_shiftLeft_eq, residue_append, residue_zero]
  ring

/-- The register after some data: what it held before is lifted over all of it. -/
theorem residue_run (data : List Byte) (register : BitVec 16) :
    ∃ quotient, residue (data.foldl absorb register) =
      residue register * X ^ (8 * data.length) + toPolynomial (ofBytes data) * X ^ 16 +
        generator * quotient := by
  induction data generalizing register with
  | nil => exact ⟨0, by simp [ofBytes, toPolynomial]⟩
  | cons byte data ih =>
      obtain ⟨first, absorbed⟩ := residue_absorb register byte
      obtain ⟨later, done⟩ := ih (absorb register byte)
      refine ⟨first * X ^ (8 * data.length) + later, ?_⟩
      rw [List.foldl_cons, done, absorbed, ofBytes_cons, toPolynomial_append, length_ofBytes,
        ← residue, List.length_cons]
      ring

theorem residue_checksum (data : List Byte) :
    ∃ quotient, residue (checksum data) =
      toPolynomial (ofBytes data) * X ^ 16 + generator * quotient := by
  obtain ⟨quotient, done⟩ := residue_run data 0#16
  rw [residue_zero, zero_mul, zero_add] at done
  exact ⟨quotient, done⟩

theorem residue_checksum_eq_modByMonic (data : List Byte) :
    residue (checksum data) = (toPolynomial (ofBytes data) * X ^ 16) %ₘ generator := by
  obtain ⟨quotient, done⟩ := residue_checksum data
  have small : (residue (checksum data)).degree < generator.degree := by
    rw [degree_generator]
    exact degree_residue_lt _
  have whole : residue (checksum data) + generator * quotient =
      toPolynomial (ofBytes data) * X ^ 16 := by
    rw [done, CharTwo.add_cancel_right]
  exact (div_modByMonic_unique _ _ generator_monic ⟨whole, small⟩).2.symm

theorem checksum_xor {first second : List Byte} (same : first.length = second.length) :
    checksum (List.zipWith (· ^^^ ·) first second) = checksum first ^^^ checksum second := by
  apply residue_injective
  rw [residue_xor, residue_checksum_eq_modByMonic, residue_checksum_eq_modByMonic,
    residue_checksum_eq_modByMonic, ofBytes_xor same,
    toPolynomial_xor (length_ofBytes_eq same), add_mul, add_modByMonic]

/-- Data followed by its own checksum is a multiple of the generator. -/
theorem checksum_append_checksum (data : List Byte) :
    checksum (data ++ ByteOrder.big.bytes 2 (checksum data).toNat) = 0#16 := by
  obtain ⟨quotient, done⟩ := residue_checksum data
  have multiple : toPolynomial (ofBytes data) * X ^ 16 + residue (checksum data) =
      generator * quotient := by
    rw [done, CharTwo.add_cancel_left]
  apply residue_injective
  rw [residue_zero, residue_checksum_eq_modByMonic, ofBytes_append, ofBytes_big,
    toPolynomial_append, length_ofVector, ← residue, multiple,
    modByMonic_eq_zero_iff_dvd generator_monic, mul_assoc]
  exact dvd_mul_right _ _

/--
The checksum is the remainder of the data, read as a polynomial from its first
bit down and lifted by sixteen places, on division by the generator.  Hence it
is linear, and data followed by its checksum with the high byte first has
checksum zero.
-/
theorem checksum_remainder :
    (∀ data, residue (checksum data) = (toPolynomial (ofBytes data) * X ^ 16) %ₘ generator) ∧
    (∀ first second : List Byte, first.length = second.length →
      checksum (List.zipWith (· ^^^ ·) first second) = checksum first ^^^ checksum second) ∧
    ∀ data, checksum (data ++ ByteOrder.big.bytes 2 (checksum data).toNat) = 0#16 :=
  ⟨residue_checksum_eq_modByMonic, fun _ _ => checksum_xor, checksum_append_checksum⟩

theorem checksum_remainder_pair :
    [0x31#8, 0x32#8].length = [0xff#8, 0x01#8].length ∧
      checksum [0x31#8 ^^^ 0xff#8, 0x32#8 ^^^ 0x01#8] =
        checksum [0x31#8, 0x32#8] ^^^ checksum [0xff#8, 0x01#8] := by
  obtain ⟨_, linear, _⟩ := checksum_remainder
  exact ⟨rfl, linear [0x31#8, 0x32#8] [0xff#8, 0x01#8] rfl⟩

-- the check value of this polynomial: the checksum of the digits 1 to 9 in ASCII
example : checksum [0x31#8, 0x32#8, 0x33#8, 0x34#8, 0x35#8, 0x36#8, 0x37#8, 0x38#8, 0x39#8] =
    0x31c3#16 := by decide +kernel

end Checksum

end RegisterLink
