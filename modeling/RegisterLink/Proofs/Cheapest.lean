import Mathlib.Data.List.Basic
import RegisterLink.Proofs.MaskedWrite
import RegisterLink.Proofs.Rank

/-!
# The cheapest idiom

Load, modify and store is the last resort.  Every other idiom is one operation
of the word with a constant, and one of those is chosen wherever some such
operation performs the masked write.  Where bits are set, cleared and kept at
once none does: each of the three rules out one kind of operation.
-/

namespace RegisterLink

/-- One operation of a word with a constant. -/
inductive WordOp where
  | assign (constant : Word)
  | orWith (constant : Word)
  | andWith (constant : Word)

namespace WordOp

def apply : WordOp → Word → Word
  | assign constant, _ => constant
  | orWith constant, word => word ||| constant
  | andWith constant, word => word &&& constant

/-- The operation does to every word what the masked write does. -/
def Performs (op : WordOp) (mask value : Word) : Prop :=
  ∀ word, op.apply word = maskedWrite mask value word

variable {mask value : Word} {op : WordOp}

theorem Performs.getLsbD (performs : op.Performs mask value) (word : Word) (k : Nat) :
    (op.apply word).getLsbD k =
      if mask.getLsbD k then value.getLsbD k else word.getLsbD k := by
  rw [performs word, getLsbD_maskedWrite]

/-- No operation sets one bit, clears another and keeps a third. -/
theorem not_performs {set clear kept : Nat} (bound : kept < 32)
    (becomesOne : mask.getLsbD set = true ∧ value.getLsbD set = true)
    (becomesZero : mask.getLsbD clear = true ∧ value.getLsbD clear = false)
    (stays : mask.getLsbD kept = false) : ¬ op.Performs mask value := by
  intro performs
  cases op with
  | assign constant =>
      -- the kept bit cannot be that of an empty and of a full word at once
      have zero := performs.getLsbD 0#32 kept
      have one := performs.getLsbD (BitVec.allOnes 32) kept
      rw [stays, if_neg Bool.false_ne_true, BitVec.getLsbD_zero] at zero
      rw [stays, if_neg Bool.false_ne_true, BitVec.getLsbD_allOnes, decide_eq_true bound] at one
      exact Bool.false_ne_true (zero.symm.trans one)
  | orWith constant =>
      have cleared := performs.getLsbD (BitVec.allOnes 32) clear
      rw [becomesZero.1, if_pos rfl, becomesZero.2, apply, BitVec.getLsbD_or,
        BitVec.getLsbD_allOnes, decide_eq_true (BitVec.lt_of_getLsbD becomesZero.1)] at cleared
      exact Bool.false_ne_true cleared.symm
  | andWith constant =>
      have done := performs.getLsbD 0#32 set
      rw [becomesOne.1, if_pos rfl, becomesOne.2, apply, BitVec.getLsbD_and,
        BitVec.getLsbD_zero] at done
      exact Bool.false_ne_true done

end WordOp

/-- Words that differ do so at some bit. -/
theorem exists_getLsbD_ne {first second : Word} (differ : first ≠ second) :
    ∃ k < 32, first.getLsbD k ≠ second.getLsbD k := by
  apply Classical.byContradiction
  intro none
  apply differ
  apply BitVec.eq_of_getLsbD_eq
  intro k bound
  exact Decidable.byContradiction fun other => none ⟨k, bound, other⟩

namespace Mask

variable (mask value : Word)

theorem positions_and : positions (mask &&& value) = (positions mask).filter value.getLsbD := by
  rw [positions, positions, List.filter_filter]
  congr 1
  funext i
  rw [BitVec.getLsbD_and, Bool.and_comm]

theorem positions_and_not :
    positions (mask &&& ~~~value) = (positions mask).filter fun i => !value.getLsbD i := by
  rw [positions_and]
  apply List.filter_congr
  intro i member
  rw [BitVec.getLsbD_not, decide_eq_true (BitVec.lt_of_getLsbD (mem_positions.mp member)),
    Bool.true_and]

/-- The mask falls into the bits that become one and those that become zero. -/
theorem size_and_add_size_and_not :
    size (mask &&& value) + size (mask &&& ~~~value) = size mask := by
  rw [size, size, positions_and, positions_and_not]
  exact (List.length_eq_length_filter_add _).symm

end Mask

namespace Idiom

variable (mask value : Word)

/-- Bits of the value outside of the mask have no say. -/
theorem cheapest_and : cheapest mask (value &&& mask) = cheapest mask value := by
  have ones : mask &&& (value &&& mask) = mask &&& value := by
    rw [BitVec.and_comm value, ← BitVec.and_assoc, BitVec.and_self]
  have zeros : mask &&& ~~~(value &&& mask) = mask &&& ~~~value := by
    apply BitVec.eq_of_getLsbD_eq
    intro k bound
    simp only [BitVec.getLsbD_and, BitVec.getLsbD_not, bound, decide_true, Bool.true_and]
    cases mask.getLsbD k <;> simp
  rw [cheapest, cheapest, ones, zeros]

variable {mask value}

/-- An idiom of one bit is chosen for a mask of one bit. -/
theorem size_of_cheapest_position {position : Nat}
    (chosen : cheapest mask value = setBit position ∨ cheapest mask value = clearBit position) :
    Mask.size mask = 1 := by
  rw [← Mask.size_and_add_size_and_not mask value, Mask.size, Mask.size]
  unfold cheapest at chosen
  split at chosen
  case isTrue => simp at chosen
  case isFalse =>
    split at chosen
    case h_1 other set clear => rw [set, clear]; rfl
    case h_2 other set clear => rw [set, clear]; rfl
    all_goals simp at chosen

theorem cheapest_position_of_size (single : Mask.size mask = 1) :
    ∃ position, cheapest mask value = setBit position ∨
      cheapest mask value = clearBit position := by
  obtain ⟨position, only⟩ := List.length_eq_one_iff.mp single
  have partly : mask ≠ Mask.full := by
    rintro rfl
    exact absurd single (by decide)
  refine ⟨position, ?_⟩
  rw [cheapest, if_neg partly, Mask.positions_and, Mask.positions_and_not, only]
  cases set : value.getLsbD position with
  | true => simp [set]
  | false => simp [set]

/-- The last resort is taken only where no operation with a constant would do. -/
theorem not_performs_of_cheapest_modify {replaced replacement : Word}
    (chosen : cheapest mask value = modify replaced replacement) (op : WordOp) :
    ¬ op.Performs mask value := by
  obtain ⟨_, someOne, someZero, partly⟩ := mixed_of_cheapest_modify chosen
  obtain ⟨rfl, rfl⟩ := eq_of_cheapest_modify chosen
  obtain ⟨set, _, one⟩ := exists_getLsbD_ne someOne
  obtain ⟨clear, _, zero⟩ := exists_getLsbD_ne someZero
  obtain ⟨kept, bound, other⟩ := exists_getLsbD_ne partly
  have becomesOne : replaced.getLsbD set = true ∧ value.getLsbD set = true := by
    simpa using one
  have becomesZero : replaced.getLsbD clear = true ∧ value.getLsbD clear = false := by
    simpa using zero
  have stays : replaced.getLsbD kept = false := by
    rw [Mask.full, BitVec.getLsbD_allOnes, decide_eq_true bound] at other
    exact Bool.eq_false_iff.mpr other
  exact WordOp.not_performs bound becomesOne becomesZero stays

/-- Every other idiom is an operation with a constant. -/
theorem performs_of_cheapest
    (direct : ∀ replaced replacement, cheapest mask value ≠ modify replaced replacement) :
    ∃ op : WordOp, op.Performs mask value := by
  have sound {idiom : Idiom} (chosen : cheapest mask value = idiom) (word : Word) :
      idiom.apply mask value word = maskedWrite mask value word := by
    rw [← chosen, apply_cheapest]
  cases chosen : cheapest mask value with
  | overwrite => exact ⟨.assign value, sound chosen⟩
  | setBit position => exact ⟨.orWith (BitVec.twoPow 32 position), sound chosen⟩
  | clearBit position => exact ⟨.andWith (~~~BitVec.twoPow 32 position), sound chosen⟩
  | setAll => exact ⟨.orWith mask, sound chosen⟩
  | clearAll => exact ⟨.andWith (~~~mask), sound chosen⟩
  | modify replaced replacement => exact (direct _ _ chosen).elim

/--
The choice performs the masked write whatever the word was, with the position of
a one-bit idiom inside of the word, and bits outside of the mask have no say in
it.  It is to load, modify and store exactly where no operation with a constant
would do, and an idiom of one bit exactly for a mask of one bit.
-/
theorem cheapest_exact (mask value : Word) :
    (∀ word, (cheapest mask value).apply mask value word =
      (word &&& ~~~mask) ||| (value &&& mask)) ∧
    (∀ position,
      cheapest mask value = setBit position ∨ cheapest mask value = clearBit position →
        position < 32) ∧
    cheapest mask value = cheapest mask (value &&& mask) ∧
    ((∃ replaced replacement, cheapest mask value = modify replaced replacement) ↔
      ¬ ∃ op : WordOp, ∀ word, op.apply word = (word &&& ~~~mask) ||| (value &&& mask)) ∧
    ((∃ position,
      cheapest mask value = setBit position ∨ cheapest mask value = clearBit position) ↔
        mask.cpop.toNat = 1) := by
  refine ⟨apply_cheapest mask value, fun position => position_lt_of_cheapest,
    (cheapest_and mask value).symm, ⟨?last, ?resort⟩, ?single⟩
  case last =>
    rintro ⟨replaced, replacement, chosen⟩ ⟨op, performs⟩
    exact not_performs_of_cheapest_modify chosen op performs
  case resort =>
    intro none
    apply Classical.byContradiction
    intro direct
    exact none (performs_of_cheapest fun replaced replacement chosen =>
      direct ⟨replaced, replacement, chosen⟩)
  case single =>
    rw [Mask.toNat_cpop]
    constructor
    · rintro ⟨position, chosen⟩
      exact size_of_cheapest_position chosen
    · exact cheapest_position_of_size

/-- The highest bit alone, cleared by a value that has every other bit set. -/
theorem cheapest_exact_highest :
    cheapest 0x80000000#32 0x7fffffff#32 = clearBit 31 ∧ 31 < 32 := by
  have chosen : cheapest 0x80000000#32 0x7fffffff#32 = clearBit 31 := by decide
  obtain ⟨_, inside, _⟩ := cheapest_exact 0x80000000#32 0x7fffffff#32
  exact ⟨chosen, inside 31 (.inr chosen)⟩

end Idiom

end RegisterLink
