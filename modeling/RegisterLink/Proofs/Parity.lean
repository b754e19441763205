import Mathlib.Data.List.Flatten
import RegisterLink.Proofs.Envelope
import RegisterLink.Proofs.Remainder

/-!
# Flips that a checksum cannot miss

The generator has an even number of terms, so it vanishes at one, and data have
as many ones as their checksum up to an even number.  The content and the
checksum of a frame therefore always have an even number of ones together, which
no odd number of flips leaves so.
-/

namespace RegisterLink

open Polynomial

namespace Bits

/-- How many bits arrived flipped. -/
def flips (sent received : List Byte) : Nat :=
  (List.zipWith (· ^^ ·) (ofBytes sent) (ofBytes received)).count true

/-- At one, a polynomial adds up its coefficients. -/
theorem eval_one_toPolynomial (bits : List Bool) :
    (toPolynomial bits).eval 1 = bits.count true := by
  induction bits with
  | nil => rw [toPolynomial, eval_zero, List.count_nil, Nat.cast_zero]
  | cons bit bits ih =>
      rw [toPolynomial, eval_add, eval_monomial, one_pow, mul_one, ih, List.count_cons,
        Nat.cast_add, add_comm, coefficient]
      cases bit <;> simp

/-- Flips come in pairs when sent and received bits have an even number of ones. -/
theorem even_flips {sent received : List Byte} (same : sent.length = received.length)
    (evenSent : Even ((ofBytes sent).count true))
    (evenReceived : Even ((ofBytes received).count true)) : Even (flips sent received) := by
  have total := congrArg (eval 1) (toPolynomial_xor (length_ofBytes_eq same))
  rw [eval_add, eval_one_toPolynomial, eval_one_toPolynomial, eval_one_toPolynomial,
    ZMod.natCast_eq_zero_iff_even.mpr evenSent, ZMod.natCast_eq_zero_iff_even.mpr evenReceived,
    add_zero] at total
  exact ZMod.natCast_eq_zero_iff_even.mp total

theorem flips_append {sent received : List Byte} (same : sent.length = received.length)
    (rest arrived : List Byte) :
    flips (sent ++ rest) (received ++ arrived) = flips sent received + flips rest arrived := by
  rw [flips, ofBytes_append, ofBytes_append, List.zipWith_append (length_ofBytes_eq same),
    List.count_append]
  rfl

theorem flips_self (data : List Byte) : flips data data = 0 := by
  rw [flips, List.zipWith_self, List.count_eq_zero]
  simp

/-- Flipping one bit of one byte is one flip. -/
theorem flips_twoPow (byte : Byte) (after : List Byte) {k : Nat} (inside : k < 8) :
    flips (byte :: after) ((byte ^^^ BitVec.twoPow 8 k) :: after) = 1 := by
  have single : ∀ k < 8, (ofVector (BitVec.twoPow 8 k)).count true = 1 := by decide
  have same : [byte].length = [byte ^^^ BitVec.twoPow 8 k].length := rfl
  have cancelled : byte ^^^ (byte ^^^ BitVec.twoPow 8 k) = BitVec.twoPow 8 k := by
    rw [← BitVec.xor_assoc, BitVec.xor_self, BitVec.zero_xor]
  have first : flips [byte] [byte ^^^ BitVec.twoPow 8 k] = 1 := by
    rw [flips, ← ofBytes_xor same, List.zipWith_cons_cons, cancelled, ofBytes_cons]
    change (_ ++ []).count true = 1
    rw [List.append_nil, single k inside]
  calc flips (byte :: after) ((byte ^^^ BitVec.twoPow 8 k) :: after)
    _ = flips [byte] [byte ^^^ BitVec.twoPow 8 k] + flips after after :=
        flips_append same after after
    _ = 1 := by rw [first, flips_self]

end Bits

namespace Checksum

open Bits

theorem eval_one_generator : generator.eval 1 = 0 := by
  simp only [generator, eval_add, eval_pow, eval_X, eval_one, one_pow]
  decide

/-- Data have as many ones as their checksum, up to an even number. -/
theorem count_checksum (data : List Byte) :
    ((ofVector (checksum data)).count true : ZMod 2) = (ofBytes data).count true := by
  obtain ⟨quotient, done⟩ := residue_checksum data
  have atOne := congrArg (eval 1) done
  rwa [residue, eval_add, eval_mul, eval_mul, eval_one_generator, zero_mul, add_zero, eval_pow,
    eval_X, one_pow, mul_one, eval_one_toPolynomial, eval_one_toPolynomial] at atOne

end Checksum

namespace Envelope

open Bits

/-- Behind its size, a frame has an even number of ones. -/
theorem even_frame (content : List Byte) :
    Even ((ofBytes ((frame content).drop 2)).count true) := by
  have swapped : (ofBytes (littleEndian 2 (checksum content).toNat)).count true =
      (ofVector (checksum content)).count true := by
    rw [← ofBytes_big]
    exact ((List.reverse_perm _).symm.flatMap_right ofVector).count_eq true
  rw [← ZMod.natCast_eq_zero_iff_even, drop_frame, ofBytes_append, List.count_append,
    swapped, Nat.cast_add, Checksum.count_checksum]
  exact CharTwo.add_self_eq_zero _

variable {content received : List Byte}

/-- As many bytes as a frame has are framed like it when they begin with its size. -/
theorem framed_iff_take (small : content.length ≤ maxContent)
    (same : received.length = (frame content).length) :
    Framed content.length received ↔ received.take 2 = (frame content).take 2 := by
  have size : declared (frame content) = content.length := by
    rw [frame, List.append_assoc, declared_header small]
  constructor
  · intro framed
    have length : (received.take 2).length = ((frame content).take 2).length := by
      rw [List.length_take, List.length_take, same]
    exact ofLittleEndian_inj length (framed.declared.trans size.symm)
  · intro header
    refine ⟨same.trans (length_frame content), ?_⟩
    rw [declared, header]
    exact size

/-- An odd number of flips behind the size cannot leave a frame behind. -/
theorem not_intact_of_odd_flips (framed : Framed content.length received)
    (same : received.length = (frame content).length)
    (odd : Odd (flips ((frame content).drop 2) (received.drop 2))) :
    ¬ Intact content.length received := by
  intro intact
  obtain ⟨_, made⟩ := frame_of_contents (contents_intact framed intact)
  have length : ((frame content).drop 2).length = (received.drop 2).length := by
    rw [List.length_drop, List.length_drop, same]
  have evenReceived : Even ((ofBytes (received.drop 2)).count true) := by
    rw [made]
    exact even_frame _
  exact Nat.not_even_iff_odd.mpr odd (even_flips length (even_frame content) evenReceived)

/-- One bit flipped behind the size is one flip. -/
theorem flips_frame {before after : List Byte} {byte : Byte} {k : Nat}
    (split : frame content = before ++ byte :: after) (behind : 2 ≤ before.length)
    (inside : k < 8) :
    flips ((frame content).drop 2)
      ((before ++ (byte ^^^ BitVec.twoPow 8 k) :: after).drop 2) = 1 := by
  rw [split, List.drop_append_of_le_length behind, List.drop_append_of_le_length behind,
    flips_append rfl, flips_self, flips_twoPow byte after inside]

/--
A frame that arrives with other size bytes has lost its framing.  One that keeps
them and arrives with an odd number of bits flipped in content and checksum, a
single one wherever it is among them, has lost its integrity.
-/
theorem odd_flips_rejected (small : content.length ≤ maxContent) :
    ∃ sent, wrap content = .ok sent ∧
      (∀ received, received.length = sent.length → received.take 2 ≠ sent.take 2 →
        contents content.length received =
          .error (.framing (content.length + overhead) received.length)) ∧
      (∀ received, received.length = sent.length → received.take 2 = sent.take 2 →
        Odd (flips (sent.drop 2) (received.drop 2)) →
        contents content.length received = .error .integrity) ∧
      ∀ before byte after k, sent = before ++ byte :: after → 2 ≤ before.length → k < 8 →
        contents content.length (before ++ (byte ^^^ BitVec.twoPow 8 k) :: after) =
          .error .integrity := by
  have odd (received : List Byte) (same : received.length = (frame content).length)
      (header : received.take 2 = (frame content).take 2)
      (flipped : Odd (flips ((frame content).drop 2) (received.drop 2))) :
      contents content.length received = .error .integrity := by
    have framed := (framed_iff_take small same).mpr header
    exact contents_spoiled framed (not_intact_of_odd_flips framed same flipped)
  refine ⟨frame content, wrap_eq_ok_iff.mpr ⟨small, rfl⟩, ?framing, odd, ?single⟩
  case framing =>
    intro received same spoiled
    have nonempty : received ≠ [] := by
      rintro rfl
      exact Nat.succ_ne_zero _ (same.trans (length_frame content)).symm
    exact contents_unframed nonempty (mt (framed_iff_take small same).mp spoiled)
  case single =>
    intro before byte after k split behind inside
    apply odd
    · rw [split, List.length_append, List.length_append, List.length_cons, List.length_cons]
    · rw [split, List.take_append_of_le_length behind, List.take_append_of_le_length behind]
    · rw [flips_frame split behind inside]
      exact odd_one

/--
The frame of two bytes with its size raised by one, with three bits flipped in
content and checksum, and with the last bit of the checksum flipped alone.
-/
theorem odd_flips_rejected_short :
    [0x31#8, 0x32#8].length ≤ maxContent ∧
      contents 2 [0x03#8, 0x00#8, 0x31#8, 0x32#8, 0xb5#8, 0x20#8] = .error (.framing 6 6) ∧
      Odd (flips [0x31#8, 0x32#8, 0xb5#8, 0x20#8] [0x30#8, 0xb2#8, 0xb5#8, 0x21#8]) ∧
      contents 2 [0x02#8, 0x00#8, 0x30#8, 0xb2#8, 0xb5#8, 0x21#8] = .error .integrity ∧
      contents 2 [0x02#8, 0x00#8, 0x31#8, 0x32#8, 0xb5#8, 0xa0#8] = .error .integrity := by
  have small : [0x31#8, 0x32#8].length ≤ maxContent := by decide
  have flipped : Odd (flips [0x31#8, 0x32#8, 0xb5#8, 0x20#8] [0x30#8, 0xb2#8, 0xb5#8, 0x21#8]) := by
    decide
  have framed : frame [0x31#8, 0x32#8] = [0x02#8, 0x00#8, 0x31#8, 0x32#8, 0xb5#8, 0x20#8] := by
    decide +kernel
  obtain ⟨sent, made, spoiled, odd, single⟩ := odd_flips_rejected small
  obtain rfl : sent = _ := (wrap_eq_ok_iff.mp made).2.symm.trans framed
  exact ⟨small, spoiled _ rfl (by decide), flipped, odd _ rfl rfl flipped,
    single [0x02#8, 0x00#8, 0x31#8, 0x32#8, 0xb5#8] 0x20#8 [] 7 rfl (by decide) (by decide)⟩

end Envelope

end RegisterLink
