import RegisterLink.Request

/-!
# Masked writes and their idioms

A masked write is determined bit by bit.  Two of them in a row are one under the
union of their masks, and the idiom chosen for a mask and a value performs the
masked write whatever the word held before, on the wire as in a program.
-/

namespace RegisterLink

theorem getLsbD_maskedWrite (mask value word : Word) (k : Nat) :
    (maskedWrite mask value word).getLsbD k =
      if mask.getLsbD k then value.getLsbD k else word.getLsbD k := by
  by_cases bound : k < 32
  · simp only [maskedWrite, BitVec.getLsbD_or, BitVec.getLsbD_and, BitVec.getLsbD_not, bound,
      decide_true, Bool.true_and]
    cases mask.getLsbD k <;> simp
  · have beyond : 32 ≤ k := Nat.le_of_not_lt bound
    simp [BitVec.getLsbD_of_ge _ _ beyond]

/-- Words are equal when they agree under every mask bit that is set and every one that is not. -/
theorem maskedWrite_eq_iff {mask value word result : Word} :
    maskedWrite mask value word = result ↔
      ∀ k < 32, result.getLsbD k = if mask.getLsbD k then value.getLsbD k else word.getLsbD k := by
  constructor
  · rintro rfl k _
    exact getLsbD_maskedWrite mask value word k
  · intro bits
    apply BitVec.eq_of_getLsbD_eq
    intro k bound
    rw [getLsbD_maskedWrite, bits k bound]

/-- The later write wins under its own mask, the earlier one keeps the rest of its bits. -/
theorem maskedWrite_maskedWrite (first second earlier later word : Word) :
    maskedWrite second later (maskedWrite first earlier word) =
      maskedWrite (first ||| second) (maskedWrite second later earlier) word := by
  apply BitVec.eq_of_getLsbD_eq
  intro k _
  simp only [getLsbD_maskedWrite, BitVec.getLsbD_or]
  cases first.getLsbD k <;> cases second.getLsbD k <;> rfl

theorem maskedWrite_full (value word : Word) : maskedWrite Mask.full value word = value := by
  rw [maskedWrite_eq_iff]
  intro k bound
  rw [Mask.full, BitVec.getLsbD_allOnes, decide_eq_true bound, if_pos rfl]

/-- Only the selected bits of the value count. -/
theorem maskedWrite_and (mask value word : Word) :
    maskedWrite mask (value &&& mask) word = maskedWrite mask value word := by
  rw [maskedWrite, maskedWrite, BitVec.and_assoc, BitVec.and_self]

namespace Mask

theorem positions_eq_nil {mask : Word} (none : positions mask = []) (k : Nat) :
    mask.getLsbD k = false := by
  cases selected : mask.getLsbD k with
  | false => rfl
  | true =>
      have member := mem_positions.mpr selected
      rw [none] at member
      cases member

theorem positions_eq_singleton {mask : Word} {position : Nat}
    (single : positions mask = [position]) (k : Nat) :
    mask.getLsbD k = decide (k = position) := by
  rw [Bool.eq_iff_iff, decide_eq_true_iff, ← mem_positions, single, List.mem_singleton]

theorem position_lt {mask : Word} {position : Nat} (single : positions mask = [position]) :
    position < 32 := by
  have selected : mask.getLsbD position = true := by
    rw [positions_eq_singleton single, decide_eq_true rfl]
  exact BitVec.lt_of_getLsbD selected

end Mask

namespace Idiom

/-- Soundness of the choice: whatever the word was, the idiom performs the masked write. -/
theorem apply_cheapest (mask value word : Word) :
    (cheapest mask value).apply mask value word = maskedWrite mask value word := by
  unfold cheapest
  split
  case isTrue whole => rw [whole, maskedWrite_full, apply]
  case isFalse =>
    symm
    rw [maskedWrite_eq_iff]
    intro k bound
    -- the positions that become one and become zero say how mask and value relate at bit `k`
    split
    case h_1 position set clear =>
      have one := Mask.positions_eq_singleton set k
      have zero := Mask.positions_eq_nil clear k
      have inside := Mask.position_lt set
      simp only [BitVec.getLsbD_and, BitVec.getLsbD_not, bound, decide_true, Bool.true_and]
        at one zero
      simp only [apply, BitVec.getLsbD_or, BitVec.getLsbD_twoPow, inside, decide_true,
        Bool.true_and, eq_comm (a := position), ← one]
      grind
    case h_2 position set clear =>
      have one := Mask.positions_eq_nil set k
      have zero := Mask.positions_eq_singleton clear k
      have inside := Mask.position_lt clear
      simp only [BitVec.getLsbD_and, BitVec.getLsbD_not, bound, decide_true, Bool.true_and]
        at one zero
      simp only [apply, BitVec.getLsbD_and, BitVec.getLsbD_not, BitVec.getLsbD_twoPow, inside,
        bound, decide_true, Bool.true_and, eq_comm (a := position), ← zero]
      grind
    case h_3 clear _ =>
      have zero := Mask.positions_eq_nil clear k
      simp only [BitVec.getLsbD_and, BitVec.getLsbD_not, bound, decide_true, Bool.true_and] at zero
      simp only [apply, BitVec.getLsbD_or]
      grind
    case h_4 set _ _ =>
      have one := Mask.positions_eq_nil set k
      simp only [BitVec.getLsbD_and] at one
      simp only [apply, BitVec.getLsbD_and, BitVec.getLsbD_not, bound, decide_true, Bool.true_and]
      grind
    case h_5 =>
      simp only [apply, BitVec.getLsbD_or, BitVec.getLsbD_and, BitVec.getLsbD_not, bound,
        decide_true, Bool.true_and]
      grind

/-- The position of a one-bit idiom lies within the word. -/
theorem position_lt_of_cheapest {mask value : Word} {position : Nat}
    (chosen : cheapest mask value = setBit position ∨ cheapest mask value = clearBit position) :
    position < 32 := by
  unfold cheapest at chosen
  split at chosen
  case isTrue => simp at chosen
  case isFalse =>
    split at chosen
    case h_1 other set _ =>
      have same : other = position := by simpa using chosen
      exact same ▸ Mask.position_lt set
    case h_2 other _ clear =>
      have same : other = position := by simpa using chosen
      exact same ▸ Mask.position_lt clear
    all_goals simp at chosen

/-- The byte that the position of a one-bit idiom is sent in holds it. -/
theorem toNat_position_of_cheapest {mask value : Word} {position : Nat}
    (chosen : cheapest mask value = setBit position ∨ cheapest mask value = clearBit position) :
    (BitVec.ofNat 8 position).toNat = position :=
  Nat.mod_eq_of_lt (Nat.lt_trans (position_lt_of_cheapest chosen) (by decide))

theorem eq_of_cheapest_modify {mask value replaced replacement : Word}
    (chosen : cheapest mask value = modify replaced replacement) :
    replaced = mask ∧ replacement = mask &&& value := by
  unfold cheapest at chosen
  split at chosen
  case isTrue => cases chosen
  case isFalse =>
    split at chosen
    case h_5 =>
      cases chosen
      exact ⟨rfl, rfl⟩
    all_goals cases chosen

/-- A word is read first only when some of its bits become one, some zero, and some stay. -/
theorem mixed_of_cheapest_modify {mask value replaced replacement : Word}
    (chosen : cheapest mask value = modify replaced replacement) :
    replacement &&& replaced = replacement ∧ replacement ≠ 0#32 ∧
      replaced ≠ replacement ∧ replaced ≠ Mask.full := by
  obtain ⟨rfl, rfl⟩ := eq_of_cheapest_modify chosen
  unfold cheapest at chosen
  split at chosen
  case isTrue => cases chosen
  case isFalse partly =>
    split at chosen
    case h_5 someOne someZero _ _ =>
      refine ⟨?_, ?_, ?_, partly⟩
      · rw [BitVec.and_comm, ← BitVec.and_assoc, BitVec.and_self]
      · intro nothing
        rw [nothing] at someOne
        exact someOne rfl
      · intro everything
        have nothing : replaced &&& ~~~value = 0#32 := by
          rw [everything, BitVec.and_assoc, BitVec.and_not_self]
          exact BitVec.and_zero
        rw [nothing] at someZero
        exact someZero rfl
    all_goals cases chosen

end Idiom

/-- The bits of its word that a write reaches: narrow stores ignore their mask. -/
def Width.reach (width : Width) (mask : Word) : Word :=
  match width with
  | .word => mask
  | narrow => narrow.mask

namespace Operation

/-- No write is sent as a read. -/
theorem write_ne_load (width : Width) (mask value : Word) (read : Width) :
    write width mask value ≠ load read := by
  intro same
  cases width with
  | byte => cases same
  | half => cases same
  | word =>
      rw [write] at same
      split at same <;> cases same

/-- The operation chosen for a write performs it, narrow stores as writes of their whole width. -/
theorem apply_write (width : Width) (mask value word : Word) :
    (write width mask value).apply word = maskedWrite (width.reach mask) value word := by
  cases width with
  | byte => exact maskedWrite_and _ _ _
  | half => exact maskedWrite_and _ _ _
  | word =>
      rw [Width.reach, ← Idiom.apply_cheapest, write]
      cases chosen : Idiom.cheapest mask value with
      | overwrite => exact maskedWrite_full value word
      | setBit position =>
          simp only [apply, Idiom.apply, Idiom.toNat_position_of_cheapest (.inl chosen)]
      | clearBit position =>
          simp only [apply, Idiom.apply, Idiom.toNat_position_of_cheapest (.inr chosen)]
      | setAll => rfl
      | clearAll => rfl
      | modify replaced replacement => rfl

end Operation

end RegisterLink
