import RegisterLink.Address
import RegisterLink.Proofs.MaskedWrite
import RegisterLink.Proofs.Width

/-!
# Memory by the byte

The memory of a program is a byte at every address of the address space, and an
access reaches as many consecutive bytes as it is wide, the low byte first.
Nothing is aligned here: accesses may overlap, and addresses wrap round.  The
memory of the device, held by the word, is one such memory.
-/

namespace RegisterLink

abbrev ByteMemory := Word → Byte

namespace ByteMemory

/-- The bytes from an address on. -/
def bytes (memory : ByteMemory) (address : Word) (count : Nat) : List Byte :=
  (List.range count).map fun offset => memory (address + BitVec.ofNat 32 offset)

def load (memory : ByteMemory) (address : Word) (width : Width) : Word :=
  width.ofBytes (memory.bytes address width.bytes)

/-- The memory after the bytes of a value were put at an address. -/
def store (memory : ByteMemory) (address : Word) (width : Width) (value : Word) : ByteMemory :=
  fun place => (width.toBytes value)[(place - address).toNat]?.getD (memory place)

theorem load_store (memory : ByteMemory) (address : Word) (width : Width) (value : Word) :
    (memory.store address width value).load address width = value &&& width.mask := by
  have back : (memory.store address width value).bytes address width.bytes =
      width.toBytes value := by
    apply List.ext_getElem
    · simp [bytes]
    · intro offset _ inside
      have small : offset < 4 := by
        rw [Width.length_toBytes] at inside
        exact Nat.lt_of_lt_of_le inside width.bytes_le
      have place : (address + BitVec.ofNat 32 offset - address).toNat = offset := by bv_omega
      simp only [bytes, List.getElem_map, List.getElem_range, store, place,
        List.getElem?_eq_getElem inside, Option.getD_some]
  rw [load, back, Width.ofBytes_toBytes]

theorem store_and_mask (memory : ByteMemory) (address : Word) (width : Width) (value : Word) :
    memory.store address width (value &&& width.mask) = memory.store address width value := by
  funext place
  simp only [store, Width.toBytes_and_mask]

/-- A second access to the same bytes makes the first one forgotten. -/
theorem store_store (memory : ByteMemory) (address : Word) (width : Width) (first second : Word) :
    (memory.store address width first).store address width second =
      memory.store address width second := by
  funext place
  by_cases inside : (place - address).toNat < width.bytes
  · have found : (place - address).toNat < (width.toBytes second).length := by
      rwa [Width.length_toBytes]
    simp only [store, List.getElem?_eq_getElem found, Option.getD_some]
  · have missed (value : Word) : (width.toBytes value)[(place - address).toNat]? = none := by
      apply List.getElem?_eq_none
      rw [Width.length_toBytes]
      exact Nat.le_of_not_lt inside
    simp only [store, missed, Option.getD_none]

end ByteMemory

end RegisterLink
