import RegisterLink.Register
import RegisterLink.Session

/-!
# Accesses

Reads and writes of registers and fields.  All of them come down to a masked
read and a masked write at an address.  A word write changes the bits of its
mask only; a narrower write stores its whole width, and its mask merely places a
packed value.  Labels name the access in a recording.
-/

namespace RegisterLink

/-- How a value relates to the bits of its mask. -/
inductive Placement where
  /-- Right-aligned: the value's bits go to the selected positions in turn. -/
  | packed
  /-- The value's bits are where they are in the register. -/
  | direct
  deriving DecidableEq

namespace Placement

/-- The value that a word holds under a mask. -/
def extract : Placement → (word mask : Word) → Word
  | packed, word, mask => Mask.gather word mask
  | direct, word, mask => word &&& mask

/-- The value put in position for a mask. -/
def position : Placement → (value mask : Word) → Word
  | packed, value, mask => Mask.scatter value mask
  | direct, value, _ => value

end Placement

namespace Session

variable {σ α : Type} [Link σ]

/--
Goes on only at an aligned address.  The device would turn to the word around an
unaligned one, which a recording could not reproduce.
-/
def aligned (address : Word) (access : Action Error (Session σ) α) : Action Error (Session σ) α :=
  if Address.Aligned address then access else throw (.unaligned address)

def readBits (address : Word) (width : Width) (mask : Word) (placement : Placement)
    (label : String) : Action Error (Session σ) Word :=
  aligned address do
    let session ← get
    let word ← onChannel (Channel.fetch address width session.config.retries)
    note (·.read address width label)
    pure (placement.extract word mask)

def writeBits (address : Word) (width : Width) (mask value : Word) (placement : Placement)
    (label : String) : Action Error (Session σ) Unit :=
  aligned address do
    let positioned := placement.position value mask
    onChannel (Channel.send (Request.write address width mask positioned).encode)
    note (·.write address width mask positioned label)

/-- Reads a whole register. -/
def read (register : Register) : Action Error (Session σ) Word :=
  readBits register.address register.width register.mask .direct register.path

/-- Writes a whole register. -/
def write (register : Register) (value : Word) : Action Error (Session σ) Unit :=
  writeBits register.address register.width register.mask value .direct
    (register.path ++ " = " ++ Literal.hexadecimal value register.width.bits)

/-- Writes the reset value of a register. -/
def reset (register : Register) : Action Error (Session σ) Unit :=
  write register register.reset

/-- Reads a field, right-aligned. -/
def readField (field : Field) : Action Error (Session σ) Word :=
  readBits field.register.address field.register.width field.mask .packed field.path

/-- Writes a right-aligned value to a field. -/
def writeField (field : Field) (value : Word) : Action Error (Session σ) Unit :=
  writeBits field.register.address field.register.width field.mask value .packed
    (field.path ++ " = " ++ Literal.binary value field.bits)

/-- Writes the reset value of a field. -/
def resetField (field : Field) : Action Error (Session σ) Unit :=
  writeBits field.register.address field.register.width field.mask field.register.reset .direct
    (field.path ++ " = " ++ Literal.binary field.reset field.bits)

end Session

end RegisterLink
