import RegisterLink.Error

/-!
# Envelopes and synchronization marks

Requests and answers travel in the same envelope: the size of the content in two
bytes, the content, and its checksum in two bytes, numbers little-endian.  The
receiver knows the size to expect, and gets the content only when size and
checksum agree with it.

The checksum is the cyclic redundancy check of `x^16 + x^12 + x^5 + 1`, with a
zero start, bits taken from the high end and no final change.  It is a shift
register: a byte enters at the high end and is shifted through bit by bit.

The host sends a marker to get back in step with the device, which answers it
with an acknowledgement.  Neither is enveloped.
-/

namespace RegisterLink

namespace Checksum

/-- The polynomial without its leading term. -/
def polynomial : BitVec 16 := 0x1021#16

/-- One step of the register; a bit falling out at the high end feeds the polynomial back. -/
def shift (register : BitVec 16) : BitVec 16 :=
  if register.msb then (register <<< 1) ^^^ polynomial else register <<< 1

/-- Takes in one byte. -/
def absorb (register : BitVec 16) (byte : Byte) : BitVec 16 :=
  Nat.repeat shift 8 (register ^^^ (byte.setWidth 16 <<< 8))

end Checksum

def checksum (data : List Byte) : BitVec 16 :=
  data.foldl Checksum.absorb 0#16

namespace Envelope

/-- The bytes that an envelope adds to its content. -/
def overhead : Nat := 4

/-- The largest content whose size fits the size bytes. -/
def maxContent : Nat := 65535

def frame (content : List Byte) : List Byte :=
  littleEndian 2 content.length ++ content ++ littleEndian 2 (checksum content).toNat

def wrap (content : List Byte) : Except Error (List Byte) :=
  if content.length ≤ maxContent then .ok (frame content)
  else .error (.oversized (content.length + overhead))

/-- The content of a received frame, checked to be a frame of `expected` content bytes. -/
def contents (expected : Nat) (received : List Byte) : Except Error (List Byte) :=
  let size := received.length
  if size = 0 then .error .timeout
  else if size ≠ expected + overhead then .error (.framing (expected + overhead) size)
  else if ofLittleEndian (received.take 2) ≠ expected then
    .error (.framing (expected + overhead) size)
  else
    let content := (received.drop 2).take expected
    if (checksum content).toNat = ofLittleEndian ((received.drop 2).drop expected) then
      .ok content
    else .error .integrity

@[simp] theorem length_frame (content : List Byte) :
    (frame content).length = content.length + overhead := by
  simp only [frame, List.length_append, length_littleEndian, overhead]
  omega

end Envelope

namespace Handshake

def marker : List Byte := [0x55#8, 0xaa#8]

def acknowledgement : List Byte := [0x4f#8, 0x4b#8]

end Handshake

end RegisterLink
