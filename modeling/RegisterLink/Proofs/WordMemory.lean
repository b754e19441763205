import RegisterLink.Proofs.ByteMemory

/-!
# Memory by the word, seen by the byte

The device holds words, a program sees bytes.  An aligned access lies within one
word, so on the bytes of a word memory it is a load or a masked write of that
word.
-/

namespace RegisterLink

namespace Width

/-- Each byte of a value is eight of its bits. -/
theorem getElem?_toBytes (width : Width) (value : Word) (i : Nat) :
    (width.toBytes value)[i]? =
      if i < width.bytes then some (value.extractLsb' (8 * i) 8) else none := by
  have byte : BitVec.ofNat 8 (value.toNat / 256 ^ i) = value.extractLsb' (8 * i) 8 := by
    apply BitVec.eq_of_toNat_eq
    rw [BitVec.toNat_ofNat, BitVec.extractLsb'_toNat, Nat.shiftRight_eq_div_pow, Nat.pow_mul]
  rw [toBytes, getElem?_littleEndian, byte]

theorem getLsbD_mask (width : Width) (k : Nat) :
    width.mask.getLsbD k = decide (k < width.bits) := by
  have bound : width.bits ≤ 32 := by cases width <;> decide
  rw [mask, BitVec.getLsbD_ushiftRight, BitVec.getLsbD_allOnes, decide_eq_decide]
  omega

/-- A write of some width replaces whole bytes. -/
theorem extract_maskedWrite (width : Width) (value word : Word) (i : Nat) :
    (maskedWrite width.mask value word).extractLsb' (8 * i) 8 =
      if i < width.bytes then value.extractLsb' (8 * i) 8 else word.extractLsb' (8 * i) 8 := by
  apply BitVec.eq_of_getLsbD_eq
  intro k bound
  have whole : 8 * i + k < width.bits ↔ i < width.bytes := by
    rw [bits]
    omega
  rw [BitVec.getLsbD_extractLsb', getLsbD_maskedWrite, getLsbD_mask]
  simp only [decide_eq_true_eq, whole]
  split <;> rw [BitVec.getLsbD_extractLsb']

end Width

namespace Address

theorem toNat_index (address : Word) : (index address).toNat = address.toNat / 4 := by
  have bound := address.isLt
  rw [index, BitVec.extractLsb'_toNat, Nat.shiftRight_eq_div_pow]
  omega

theorem toNat_mod_four {address : Word} (aligned : Aligned address) : address.toNat % 4 = 0 := by
  have low := congrArg BitVec.toNat aligned
  rwa [BitVec.toNat_setWidth] at low

/-- A place lies in the word at an aligned address when it is fewer than four bytes on. -/
theorem index_eq_iff {address : Word} (aligned : Aligned address) (place : Word) :
    index place = index address ↔ (place - address).toNat < 4 := by
  have low := toNat_mod_four aligned
  have first := place.isLt
  have second := address.isLt
  rw [← BitVec.toNat_inj, toNat_index, toNat_index, BitVec.toNat_sub]
  omega

theorem toNat_sub {address place : Word} (aligned : Aligned address)
    (inside : (place - address).toNat < 4) : place.toNat % 4 = (place - address).toNat := by
  have low := toNat_mod_four aligned
  have first := place.isLt
  have second := address.isLt
  rw [BitVec.toNat_sub] at inside ⊢
  omega

end Address

namespace ByteMemory

/-- The bytes of a word memory. -/
def ofWords (words : BitVec 30 → Word) : ByteMemory :=
  fun place => (words (Address.index place)).extractLsb' (8 * (place.toNat % 4)) 8

variable {address : Word}

theorem load_ofWords (words : BitVec 30 → Word) (aligned : Address.Aligned address)
    (width : Width) :
    (ofWords words).load address width = words (Address.index address) &&& width.mask := by
  have bytes : (ofWords words).bytes address width.bytes =
      width.toBytes (words (Address.index address)) := by
    apply List.ext_getElem?
    intro offset
    rw [Width.getElem?_toBytes, ByteMemory.bytes, List.getElem?_map]
    by_cases inside : offset < width.bytes
    · have small : offset < 4 := Nat.lt_of_lt_of_le inside width.bytes_le
      have place : (address + BitVec.ofNat 32 offset - address).toNat = offset := by bv_omega
      have near : (address + BitVec.ofNat 32 offset - address).toNat < 4 := by
        rwa [place]
      rw [List.getElem?_range inside, if_pos inside, Option.map_some, ofWords,
        (Address.index_eq_iff aligned _).mpr near, Address.toNat_sub aligned near, place]
    · rw [if_neg inside, List.getElem?_eq_none, Option.map_none]
      rw [List.length_range]
      exact Nat.le_of_not_lt inside
  rw [load, bytes, Width.ofBytes_toBytes]

/-- An aligned store replaces the bits of its width in one word. -/
theorem store_ofWords (words : BitVec 30 → Word) (aligned : Address.Aligned address)
    (width : Width) (value : Word) :
    (ofWords words).store address width value =
      ofWords fun index =>
        if index = Address.index address then maskedWrite width.mask value (words index)
        else words index := by
  funext place
  rw [store, Width.getElem?_toBytes, ofWords]
  by_cases inside : (place - address).toNat < 4
  · have offset := Address.toNat_sub aligned inside
    have same := (Address.index_eq_iff aligned place).mpr inside
    rw [ofWords, if_pos same, offset, Width.extract_maskedWrite]
    split <;> rfl
  · have far : ¬ (place - address).toNat < width.bytes :=
      fun near => inside (Nat.lt_of_lt_of_le near width.bytes_le)
    have other : Address.index place ≠ Address.index address :=
      fun same => inside ((Address.index_eq_iff aligned place).mp same)
    rw [if_neg far, ofWords, if_neg other, Option.getD_none]

end ByteMemory

end RegisterLink
