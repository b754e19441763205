import RegisterLink.Word

/-!
# Addresses

Memory is reached in words of four bytes.  An address splits into the index of
its word and an offset of two bits; it is aligned when the offset is zero, and
aligned addresses are in bijection with word indices.
-/

namespace RegisterLink

namespace Address

/-- The word that contains an address. -/
def index (address : Word) : BitVec 30 := address.extractLsb' 2 30

/-- The address of the first byte of a word. -/
def ofIndex (index : BitVec 30) : Word := index.setWidth 32 <<< 2

def Aligned (address : Word) : Prop := address.setWidth 2 = 0#2

instance (address : Word) : Decidable (Aligned address) :=
  inferInstanceAs (Decidable (_ = _))

/-- Bit `k` of a word index is bit `k + 2` of its addresses. -/
theorem getLsbD_ofIndex (i : BitVec 30) (k : Nat) :
    (ofIndex i).getLsbD (k + 2) = i.getLsbD k := by
  have beyond : ¬ k + 2 < 2 := by omega
  by_cases bound : k < 30
  · have inside : k + 2 < 32 := by omega
    have low : k < 32 := by omega
    simp only [ofIndex, BitVec.getLsbD_shiftLeft, BitVec.getLsbD_setWidth, inside, beyond, low,
      decide_true, decide_false, Bool.not_false, Bool.true_and, Nat.add_sub_cancel]
  · rw [BitVec.getLsbD_of_ge _ _ (by omega), BitVec.getLsbD_of_ge _ _ (by omega)]

@[simp] theorem index_ofIndex (i : BitVec 30) : index (ofIndex i) = i := by
  apply BitVec.eq_of_getLsbD_eq
  intro k hk
  rw [index, BitVec.getLsbD_extractLsb', Nat.add_comm 2 k, getLsbD_ofIndex]
  simp only [hk, decide_true, Bool.true_and]

theorem ofIndex_index {address : Word} (aligned : Aligned address) :
    ofIndex (index address) = address := by
  apply BitVec.eq_of_getLsbD_eq
  intro k hk
  by_cases low : k < 2
  · have bit := congrArg (fun bits : BitVec 2 => bits.getLsbD k) aligned
    simpa [ofIndex, low] using bit.symm
  · have rest : 2 + (k - 2) = k := by omega
    have bound : k - 2 < 30 := by omega
    simp [ofIndex, index, low, rest, bound, hk]

@[simp] theorem aligned_ofIndex (i : BitVec 30) : Aligned (ofIndex i) := by
  apply BitVec.eq_of_getLsbD_eq
  intro k hk
  simp [ofIndex, hk]

end Address

end RegisterLink
