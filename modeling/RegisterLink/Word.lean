/-!
# Bytes, words and literals

Registers hold 32-bit words, the wire carries bytes.  A number crosses from one
to the other as a fixed count of base-256 digits, so both directions are stated
on natural numbers; a width enters only where a caller fixes it.

Labels and rendered code show numbers with a fixed least count of digits, chosen
by the number of bits they stand for.  A number too large for that count keeps
all of its digits.
-/

namespace RegisterLink

abbrev Byte := BitVec 8

abbrev Word := BitVec 32

/-- The `count` low base-256 digits of a number, least significant first. -/
def littleEndian : (count n : Nat) → List Byte
  | 0, _ => []
  | count + 1, n => BitVec.ofNat 8 n :: littleEndian count (n / 256)

/-- The number whose base-256 digits are given, least significant first. -/
def ofLittleEndian : List Byte → Nat
  | [] => 0
  | b :: bs => b.toNat + 256 * ofLittleEndian bs

@[simp] theorem length_littleEndian (count n : Nat) :
    (littleEndian count n).length = count := by
  induction count generalizing n with
  | zero => rfl
  | succ count ih => simp [littleEndian, ih]

theorem littleEndian_ofLittleEndian (bs : List Byte) :
    littleEndian bs.length (ofLittleEndian bs) = bs := by
  induction bs with
  | nil => rfl
  | cons b bs ih =>
      have h := b.isLt
      have hlow : (b.toNat + 256 * ofLittleEndian bs) / 256 = ofLittleEndian bs := by omega
      simp only [List.length_cons, ofLittleEndian, littleEndian, hlow, ih, List.cons.injEq,
        and_true]
      apply BitVec.eq_of_toNat_eq
      simp only [BitVec.toNat_ofNat]
      omega

/-- Which end of a number is sent first. -/
inductive ByteOrder where
  | little
  | big

namespace ByteOrder

def bytes (order : ByteOrder) (count n : Nat) : List Byte :=
  match order with
  | little => littleEndian count n
  | big => (littleEndian count n).reverse

def number (order : ByteOrder) (bs : List Byte) : Nat :=
  match order with
  | little => ofLittleEndian bs
  | big => ofLittleEndian bs.reverse

end ByteOrder

namespace Literal

/-- The digits of `n`, filled up with zeros on the left to at least `count` of them. -/
def digits (base count n : Nat) : List Char :=
  (Nat.toDigits base n).leftpad count '0'

/-- One upper-case digit for each four bits. -/
def hexadecimal (value : Word) (bits : Nat) : String :=
  "0x" ++ String.ofList ((digits 16 ((bits + 3) / 4) value.toNat).map Char.toUpper)

/-- One digit for each bit, and at least one. -/
def binary (value : Word) (bits : Nat) : String :=
  "0b" ++ String.ofList (digits 2 (max bits 1) value.toNat)

end Literal

end RegisterLink
