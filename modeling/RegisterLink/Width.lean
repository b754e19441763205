import RegisterLink.Word

/-!
# Access widths
-/

namespace RegisterLink

/-- How much of a word one memory access covers. -/
inductive Width where
  | byte
  | half
  | word
  deriving DecidableEq

namespace Width

def bytes : Width → Nat
  | byte => 1
  | half => 2
  | word => 4

def bits (width : Width) : Nat := 8 * width.bytes

/-- The low bits of a word that an access reaches. -/
def mask (width : Width) : Word := BitVec.allOnes 32 >>> (32 - width.bits)

/-- The unsigned integer type of this width in C. -/
def ctype : Width → String
  | byte => "uint8_t"
  | half => "uint16_t"
  | word => "uint32_t"

/-- The value sent in little-endian bytes; bytes beyond the width are ignored. -/
def ofBytes (width : Width) (content : List Byte) : Word :=
  BitVec.ofNat 32 (ofLittleEndian (content.take width.bytes))

/-- The bytes of the part of a word that an access reaches. -/
def toBytes (width : Width) (value : Word) : List Byte :=
  littleEndian width.bytes value.toNat

@[simp] theorem mask_word : word.mask = BitVec.allOnes 32 := by decide

@[simp] theorem length_toBytes (width : Width) (value : Word) :
    (width.toBytes value).length = width.bytes := by
  simp [toBytes]

end Width

end RegisterLink
