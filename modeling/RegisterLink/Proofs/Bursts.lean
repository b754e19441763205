import Mathlib.RingTheory.Coprime.Lemmas
import RegisterLink.Proofs.Envelope
import RegisterLink.Proofs.Remainder

/-!
# Bursts that a checksum cannot miss

Bits that arrive flipped within sixteen in a row make a difference that is, but
for a power of the indeterminate, a polynomial of degree below sixteen.  The
generator has a constant term, so it is coprime to the indeterminate and divides
such a difference only if there is none.
-/

namespace RegisterLink

open Polynomial

namespace Bits

/-- All bits that arrived flipped are among so many in a row, wherever these stand. -/
def Burst (width : Nat) (sent received : List Byte) : Prop :=
  ∃ start, ∀ i, (ofBytes sent)[i]? ≠ (ofBytes received)[i]? → start ≤ i ∧ i < start + width

theorem ofBytes_injective : Function.Injective ofBytes := by
  intro first second same
  have length : first.length = second.length := by
    have bits := congrArg List.length same
    rw [length_ofBytes, length_ofBytes] at bits
    omega
  induction first generalizing second with
  | nil => exact (List.eq_nil_of_length_eq_zero length.symm).symm
  | cons byte first ih =>
      cases second with
      | nil => cases length
      | cons other second =>
          have sizes : (ofVector byte).length = (ofVector other).length := by
            rw [length_ofVector, length_ofVector]
          rw [ofBytes_cons, ofBytes_cons] at same
          obtain ⟨heads, tails⟩ := List.append_inj same sizes
          rw [ofVector_injective heads, ih tails (Nat.succ.inj length)]

theorem toPolynomial_clear {bits : List Bool} (clear : ∀ i : Nat, bits[i]? ≠ some true) :
    toPolynomial bits = 0 := by
  induction bits with
  | nil => rfl
  | cons bit bits ih =>
      have rest := ih fun i => clear (i + 1)
      cases bit with
      | false => rw [toPolynomial, rest, coefficient, if_neg Bool.false_ne_true, map_zero, add_zero]
      | true => exact absurd rfl (clear 0)

/-- Bits that are clear outside of a window are those of the window, lifted over what follows. -/
theorem toPolynomial_window {bits : List Bool} {start width : Nat}
    (inside : ∀ i : Nat, bits[i]? = some true → start ≤ i ∧ i < start + width) :
    toPolynomial bits =
      toPolynomial ((bits.drop start).take width) * X ^ (bits.drop (start + width)).length := by
  have before : toPolynomial (bits.take start) = 0 := by
    apply toPolynomial_clear
    intro i set
    rw [List.getElem?_take] at set
    split at set
    case isTrue below => exact Nat.not_le_of_lt below (inside i set).1
    case isFalse => cases set
  have behind : toPolynomial (bits.drop (start + width)) = 0 := by
    apply toPolynomial_clear
    intro i set
    rw [List.getElem?_drop] at set
    exact Nat.not_lt_of_le (Nat.le_add_right _ i) (inside _ set).2
  have split : bits = bits.take start ++
      ((bits.drop start).take width ++ bits.drop (start + width)) := by
    rw [← List.drop_drop, List.take_append_drop, List.take_append_drop]
  conv_lhs => rw [split]
  rw [toPolynomial_append, toPolynomial_append, before, behind, zero_mul, zero_add, add_zero]

/-- Where the rows of a burst are combined, only bits of its window are set. -/
theorem Burst.inside {width start : Nat} {sent received : List Byte}
    (flipped : ∀ i, (ofBytes sent)[i]? ≠ (ofBytes received)[i]? → start ≤ i ∧ i < start + width)
    (i : Nat) (set : (List.zipWith (· ^^ ·) (ofBytes sent) (ofBytes received))[i]? = some true) :
    start ≤ i ∧ i < start + width := by
  apply flipped i
  intro same
  rw [List.getElem?_zipWith, same] at set
  cases arrived : (ofBytes received)[i]? with
  | none => rw [arrived] at set; cases set
  | some bit => rw [arrived] at set; simp at set

end Bits

namespace Checksum

open Bits

theorem isCoprime_generator : IsCoprime generator X := by
  refine ⟨1, -(X ^ 15 + X ^ 11 + X ^ 4), ?_⟩
  rw [generator]
  ring

/-- The generator divides the difference of data that it does not tell apart. -/
theorem generator_dvd {first second : List Byte} (length : first.length = second.length)
    (same : checksum first = checksum second) :
    generator ∣ (toPolynomial (ofBytes first) + toPolynomial (ofBytes second)) * X ^ 16 := by
  have nothing := checksum_xor length
  rw [same, BitVec.xor_self] at nothing
  have remainder := residue_checksum_eq_modByMonic (List.zipWith (· ^^^ ·) first second)
  rw [nothing, residue_zero, ofBytes_xor length, toPolynomial_xor (length_ofBytes_eq length)]
    at remainder
  exact (modByMonic_eq_zero_iff_dvd generator_monic).mp remainder.symm

theorem checksum_ne_of_burst {content other : List Byte} (length : content.length = other.length)
    (burst : Burst 16 content other) (changed : other ≠ content) :
    checksum other ≠ checksum content := by
  intro same
  obtain ⟨start, flipped⟩ := burst
  let difference := List.zipWith (· ^^ ·) (ofBytes content) (ofBytes other)
  -- the generator passes over the lift and divides the window, which is too short for it
  let window := (difference.drop start).take 16
  have whole : toPolynomial difference =
      toPolynomial (ofBytes content) + toPolynomial (ofBytes other) :=
    toPolynomial_xor (length_ofBytes_eq length)
  have lifted : toPolynomial difference =
      toPolynomial window * X ^ (difference.drop (start + 16)).length :=
    toPolynomial_window (Burst.inside flipped)
  have divides : generator ∣ toPolynomial window := by
    have multiple := generator_dvd length same.symm
    rw [← whole, lifted, mul_assoc, ← pow_add] at multiple
    exact isCoprime_generator.pow_right.dvd_of_dvd_mul_right multiple
  have short : (toPolynomial window).degree < generator.degree := by
    have few : window.length ≤ 16 := List.length_take_le 16 _
    rw [degree_generator]
    exact (degree_toPolynomial_lt window).trans_le (Nat.cast_le.mpr few)
  have nothing : toPolynomial difference = 0 := by
    rw [lifted, eq_zero_of_dvd_of_degree_lt divides short, zero_mul]
  apply changed
  apply ofBytes_injective
  apply toPolynomial_inj (length_ofBytes_eq length.symm)
  rw [whole] at nothing
  exact (CharTwo.add_eq_zero.mp nothing).symm

-- with one bit more the generator itself goes undetected
example : checksum [0x01#8, 0x10#8, 0x21#8] = checksum [0x00#8, 0x00#8, 0x00#8] := by
  decide +kernel

end Checksum

namespace Envelope

open Bits

/-- Between a size and a trailer, a content is intact when the trailer is its checksum. -/
theorem intact_iff {size : Nat} {content trailer : List Byte} (whole : content.length = size) :
    Intact size (littleEndian 2 size ++ (content ++ trailer)) ↔
      (checksum content).toNat = ofLittleEndian trailer := by
  rw [Intact, List.drop_left' (length_littleEndian _ _), List.take_left' whole,
    List.drop_left' whole]

/-- Bytes between a size and a trailer are refused when the trailer is not their checksum. -/
theorem contents_mismatch {size : Nat} {content trailer : List Byte} (small : size ≤ maxContent)
    (whole : content.length = size) (short : trailer.length = 2)
    (other : (checksum content).toNat ≠ ofLittleEndian trailer) :
    contents size (littleEndian 2 size ++ (content ++ trailer)) = .error .integrity := by
  have length : (content ++ trailer).length = size + 2 := by
    rw [List.length_append, whole, short]
  exact contents_spoiled (framed_header small length) (mt (intact_iff whole).mp other)

/--
A frame with a burst of at most sixteen bits in its content, at any offset and
across the bounds of bytes, has lost its integrity, and so has one with any
change in the two bytes of its checksum.
-/
theorem bursts_rejected {content : List Byte} (small : content.length ≤ maxContent) :
    ∃ header trailer, wrap content = .ok (header ++ content ++ trailer) ∧
      header.length = 2 ∧ trailer.length = 2 ∧
      (∀ other, other.length = content.length → other ≠ content → Burst 16 content other →
        checksum other ≠ checksum content ∧
        contents content.length (header ++ other ++ trailer) = .error .integrity) ∧
      ∀ changed, changed.length = 2 → changed ≠ trailer →
        contents content.length (header ++ content ++ changed) = .error .integrity := by
  have sum : ofLittleEndian (littleEndian 2 (checksum content).toNat) =
      (checksum content).toNat := by
    rw [ofLittleEndian_littleEndian]
    exact Nat.mod_eq_of_lt (checksum content).isLt
  refine ⟨littleEndian 2 content.length, littleEndian 2 (checksum content).toNat,
    wrap_eq_ok_iff.mpr ⟨small, rfl⟩, length_littleEndian _ _, length_littleEndian _ _,
    ?content, ?trailer⟩
  case content =>
    intro other length different burst
    have apart := Checksum.checksum_ne_of_burst length.symm burst different
    refine ⟨apart, ?_⟩
    rw [List.append_assoc]
    apply contents_mismatch small length (length_littleEndian _ _)
    rw [sum]
    exact fun same => apart (BitVec.eq_of_toNat_eq same)
  case trailer =>
    intro changed length different
    rw [List.append_assoc]
    apply contents_mismatch small rfl length
    intro same
    apply different
    apply ofLittleEndian_inj (length.trans (length_littleEndian _ _).symm)
    rw [← same, sum]

/-- Sixteen flipped bits in a row that begin and end in the middle of a byte. -/
theorem bursts_rejected_straddling :
    [0x31#8, 0x32#8, 0x33#8].length ≤ maxContent ∧
      Burst 16 [0x31#8, 0x32#8, 0x33#8] [0x3e#8, 0xcd#8, 0xc3#8] ∧
      contents 3 [0x03#8, 0x00#8, 0x3e#8, 0xcd#8, 0xc3#8, 0x52#8, 0x97#8] = .error .integrity ∧
      contents 3 [0x03#8, 0x00#8, 0x31#8, 0x32#8, 0x33#8, 0x83#8, 0x57#8] = .error .integrity := by
  have small : [0x31#8, 0x32#8, 0x33#8].length ≤ maxContent := by decide
  have burst : Burst 16 [0x31#8, 0x32#8, 0x33#8] [0x3e#8, 0xcd#8, 0xc3#8] := by
    have within : ∀ i < 24, (ofBytes [0x31#8, 0x32#8, 0x33#8])[i]? ≠
        (ofBytes [0x3e#8, 0xcd#8, 0xc3#8])[i]? → 4 ≤ i ∧ i < 4 + 16 := by decide
    refine ⟨4, fun i differs => within i (Nat.lt_of_not_le fun beyond => differs ?_) differs⟩
    rw [List.getElem?_eq_none (by simpa using beyond),
      List.getElem?_eq_none (by simpa using beyond)]
  obtain ⟨header, trailer, made, two, sum, content, changed⟩ := bursts_rejected small
  have framed : frame [0x31#8, 0x32#8, 0x33#8] =
      [0x03#8, 0x00#8] ++ [0x31#8, 0x32#8, 0x33#8] ++ [0x52#8, 0x97#8] := by decide +kernel
  have same := (wrap_eq_ok_iff.mp made).2.symm.trans framed
  rw [List.append_assoc, List.append_assoc] at same
  obtain ⟨rfl, rest⟩ := List.append_inj same two
  obtain ⟨_, rfl⟩ := List.append_inj rest rfl
  exact ⟨small, burst, (content [0x3e#8, 0xcd#8, 0xc3#8] rfl (by decide) burst).2,
    changed [0x83#8, 0x57#8] rfl (by decide)⟩

end Envelope

end RegisterLink
