import RegisterLink.Address
import RegisterLink.Width

/-!
# Request header

Every request opens with a sentinel and a tagged address: since requests are
word aligned, the two low bits of the address are free to carry flags, which
select the operation together with the size of the payload.
-/

namespace RegisterLink

/-- The meaning of the two low bits of a tagged address. -/
inductive Flags where
  | word
  | byte
  | half
  | reserved
  deriving DecidableEq

namespace Flags

def toBits : Flags → BitVec 2
  | word => 0#2
  | byte => 1#2
  | half => 2#2
  | reserved => 3#2

def ofBits (bits : BitVec 2) : Flags :=
  if bits = 0#2 then word
  else if bits = 1#2 then byte
  else if bits = 2#2 then half
  else reserved

/-- The flags of a read. -/
def ofWidth : Width → Flags
  | .word => word
  | .byte => byte
  | .half => half

@[simp] theorem ofBits_toBits (flags : Flags) : ofBits flags.toBits = flags := by
  cases flags <;> rfl

@[simp] theorem toBits_ofBits (bits : BitVec 2) : (ofBits bits).toBits = bits := by
  revert bits
  decide

end Flags

/-- A word address with flags in place of its two low bits. -/
structure TaggedAddress where
  flags : Flags
  index : BitVec 30
  deriving DecidableEq

namespace TaggedAddress

/-- Tags an address, whose own low bits are lost. -/
def tag (address : Word) (flags : Flags) : TaggedAddress :=
  ⟨flags, Address.index address⟩

/-- The address of the word meant, its low bits clear. -/
def address (tagged : TaggedAddress) : Word := Address.ofIndex tagged.index

def toWord (tagged : TaggedAddress) : Word :=
  tagged.address ||| tagged.flags.toBits.setWidth 32

def ofWord (word : Word) : TaggedAddress :=
  ⟨Flags.ofBits (word.setWidth 2), Address.index word⟩

@[simp] theorem ofWord_toWord (tagged : TaggedAddress) : ofWord tagged.toWord = tagged := by
  have low : tagged.toWord.setWidth 2 = tagged.flags.toBits := by
    apply BitVec.eq_of_getLsbD_eq
    intro k hk
    simp [toWord, address, Address.ofIndex, hk]
  have high : Address.index tagged.toWord = tagged.index := by
    apply BitVec.eq_of_getLsbD_eq
    intro k hk
    rw [toWord, address, Address.index, BitVec.getLsbD_extractLsb', Nat.add_comm 2 k,
      BitVec.getLsbD_or, Address.getLsbD_ofIndex, BitVec.getLsbD_setWidth,
      BitVec.getLsbD_of_ge tagged.flags.toBits _ (by omega)]
    simp only [hk, decide_true, Bool.true_and, Bool.and_false, Bool.or_false]
  simp [ofWord, low, high]

@[simp] theorem toWord_ofWord (word : Word) : (ofWord word).toWord = word := by
  apply BitVec.eq_of_getLsbD_eq
  intro k hk
  by_cases low : k < 2
  · simp [toWord, ofWord, address, Address.ofIndex, hk, low]
  · have rest : 2 + (k - 2) = k := by omega
    have bound : k - 2 < 30 := by omega
    simp [toWord, ofWord, address, Address.ofIndex, Address.index, hk, low, rest, bound]

end TaggedAddress

structure Header where
  sentinel : BitVec 16
  address : TaggedAddress
  deriving DecidableEq

namespace Header

/-- The bytes of a header. -/
def size : Nat := 6

/-- Each member in the given byte order; the members keep their places. -/
def toBytes (order : ByteOrder) (header : Header) : List Byte :=
  order.bytes 2 header.sentinel.toNat ++ order.bytes 4 header.address.toWord.toNat

/-- The header at the front of some bytes. -/
def ofBytes (order : ByteOrder) (bytes : List Byte) : Header where
  sentinel := BitVec.ofNat 16 (order.number (bytes.take 2))
  address := .ofWord (BitVec.ofNat 32 (order.number ((bytes.drop 2).take 4)))

end Header

end RegisterLink
