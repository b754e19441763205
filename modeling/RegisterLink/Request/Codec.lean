import RegisterLink.Request
import RegisterLink.Request.Header

/-!
# Wire form of requests

A request is a header and a payload.  The device tells the operations apart by
the flags of the header and the size of the payload, so the two together have to
determine the operation:

| operation        | flags | payload           |
|------------------|-------|-------------------|
| load word        | word  |                   |
| load byte        | byte  |                   |
| load half        | half  |                   |
| store byte       | byte  | value (1)         |
| store half       | word  | value (2)         |
| store word       | word  | value (4)         |
| set bit          | word  | position (1)      |
| clear bit        | half  | position (1)      |
| set mask         | byte  | mask (4)          |
| clear mask       | half  | inverted mask (4) |
| modify           | word  | mask (4), value (4) |
-/

namespace RegisterLink

namespace Operation

def flags : Operation → Flags
  | load width => .ofWidth width
  | store .byte _ => .byte
  | store .half _ => .word
  | store .word _ => .word
  | setBit _ => .word
  | clearBit _ => .half
  | setMask _ => .byte
  | clearMask _ => .half
  | modify _ _ => .word

/-- A modify sends its value restricted to its mask. -/
def payload : Operation → List Byte
  | load _ => []
  | store width value => width.toBytes value
  | setBit position => [position]
  | clearBit position => [position]
  | setMask mask => Width.word.toBytes mask
  | clearMask mask => Width.word.toBytes (~~~mask)
  | modify mask value => Width.word.toBytes mask ++ Width.word.toBytes (value &&& mask)

/-- The operation selected by flags and payload, if they select one. -/
def ofPayload? (flags : Flags) (payload : List Byte) : Option Operation :=
  match payload.length, flags with
  | 0, .word => some (load .word)
  | 0, .byte => some (load .byte)
  | 0, .half => some (load .half)
  | 1, .byte => some (store .byte (Width.byte.ofBytes payload))
  | 1, .word => some (setBit (BitVec.ofNat 8 (ofLittleEndian payload)))
  | 1, .half => some (clearBit (BitVec.ofNat 8 (ofLittleEndian payload)))
  | 2, .word => some (store .half (Width.half.ofBytes payload))
  | 4, .word => some (store .word (Width.word.ofBytes payload))
  | 4, .byte => some (setMask (Width.word.ofBytes payload))
  | 4, .half => some (clearMask (~~~Width.word.ofBytes payload))
  | 8, .word => some (modify (Width.word.ofBytes payload) (Width.word.ofBytes (payload.drop 4)))
  | _, _ => none

end Operation

namespace Request

/-- The first bytes of every request. -/
def mark : List Byte := [0x5f#8, 0x3a#8]

/-- The mark as the number that a header holds. -/
def sentinel : BitVec 16 := BitVec.ofNat 16 (ofLittleEndian mark)

/-- The largest request. -/
def maxSize : Nat := Header.size + 8

def header (request : Request) : Header where
  sentinel := sentinel
  address := .tag request.address request.operation.flags

def encode (request : Request) : List Byte :=
  request.header.toBytes .little ++ request.operation.payload

/-- The request that the device reads from a frame's content, if it is one. -/
def decode? (content : List Byte) : Option Request :=
  if content.length < Header.size then none
  else
    let header := Header.ofBytes .little content
    if header.sentinel = sentinel then
      (Operation.ofPayload? header.address.flags (content.drop Header.size)).map
        (⟨header.address.address, ·⟩)
    else none

end Request

end RegisterLink
