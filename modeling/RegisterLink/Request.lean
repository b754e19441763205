import RegisterLink.Idiom
import RegisterLink.Width

/-!
# Requests

A request asks the device for one operation on one word.  Writes of a whole word
go out in their cheapest idiom; narrower writes are always plain stores, since
the device has no idioms below a word.
-/

namespace RegisterLink

/-- What the device does to one word. -/
inductive Operation where
  /-- Answer the value, the only operation that is answered. -/
  | load (width : Width)
  | store (width : Width) (value : Word)
  | setBit (position : Byte)
  | clearBit (position : Byte)
  | setMask (mask : Word)
  | clearMask (mask : Word)
  | modify (mask value : Word)
  deriving DecidableEq

namespace Operation

/-- The cheapest operation that writes the positioned `value` under `mask`. -/
def write (width : Width) (mask value : Word) : Operation :=
  match width with
  | .word =>
      match Idiom.cheapest mask value with
      | .overwrite => store .word value
      | .setBit position => setBit (BitVec.ofNat 8 position)
      | .clearBit position => clearBit (BitVec.ofNat 8 position)
      | .setAll => setMask mask
      | .clearAll => clearMask mask
      | .modify mask value => modify mask value
  | narrow => store narrow (value &&& narrow.mask)

/--
The word left behind by an operation.  A bit position beyond the word changes
nothing, and a modify puts in its value as it came, unrestricted by its mask.
-/
def apply : Operation → Word → Word
  | load _, word => word
  | store width value, word => maskedWrite width.mask value word
  | setBit position, word => word ||| BitVec.twoPow 32 position.toNat
  | clearBit position, word => word &&& ~~~BitVec.twoPow 32 position.toNat
  | setMask mask, word => word ||| mask
  | clearMask mask, word => word &&& ~~~mask
  | modify mask value, word => (word &&& ~~~mask) ||| value

/-- The size of the answer's content. -/
def responseSize : Operation → Nat
  | load width => width.bytes
  | _ => 0

end Operation

structure Request where
  address : Word
  operation : Operation
  deriving DecidableEq

namespace Request

def read (address : Word) (width : Width) : Request :=
  ⟨address, .load width⟩

def write (address : Word) (width : Width) (mask value : Word) : Request :=
  ⟨address, .write width mask value⟩

end Request

end RegisterLink
