import Mathlib.Algebra.Group.Nat.Defs
import RegisterLink.Mask

/-!
# Ranks under a mask

The rank of a selected position is the number of selected positions below it,
and it is the place of that position in the walk over the mask.  Scattering and
gathering exchange positions and ranks, so what was gathered under a mask
scatters back to the selected bits.
-/

namespace RegisterLink

/-- The word with these bits. -/
def Word.ofBits (bit : Nat → Bool) : Word :=
  (BitVec.ofBoolListLE ((List.range 32).map bit)).setWidth 32

theorem Word.getLsbD_ofBits (bit : Nat → Bool) {k : Nat} (bound : k < 32) :
    (Word.ofBits bit).getLsbD k = bit k := by
  rw [Word.ofBits, BitVec.getLsbD_setWidth, BitVec.getLsbD_ofBoolListLE]
  simp [bound]

namespace Mask

/-- How many positions below `i` are selected. -/
def rank (mask : Word) (i : Nat) : Nat := (List.range i).countP mask.getLsbD

theorem rank_le (mask : Word) (i : Nat) : rank mask i ≤ i := by
  have bound := List.countP_le_length (p := mask.getLsbD) (l := List.range i)
  rwa [List.length_range] at bound

/-- A selected position stands in the walk at its rank. -/
theorem getElem?_positions_rank {mask : Word} {i : Nat} (selected : mask.getLsbD i = true) :
    (positions mask)[rank mask i]? = some i := by
  have bound := BitVec.lt_of_getLsbD selected
  have split : List.range 32 = List.range i ++ (List.range (32 - i)).map (i + ·) := by
    rw [← List.range_add, Nat.add_sub_cancel' (Nat.le_of_lt bound)]
  obtain ⟨above, more⟩ : ∃ above, 32 - i = above + 1 := ⟨31 - i, by omega⟩
  have before : ((List.range i).filter mask.getLsbD).length = rank mask i :=
    List.countP_eq_length_filter.symm
  rw [positions, split, List.filter_append, more, List.range_succ_eq_map, List.map_cons,
    Nat.add_zero, List.filter_cons_of_pos selected,
    List.getElem?_append_right (Nat.le_of_eq before), before, Nat.sub_self, List.getElem?_cons_zero]

theorem nodup_positions (mask : Word) : (positions mask).Nodup :=
  List.nodup_range.filter _

/-- The walk over a mask has at place `j` the selected position of rank `j`. -/
theorem getElem?_positions {mask : Word} {i j : Nat} :
    (positions mask)[j]? = some i ↔ mask.getLsbD i = true ∧ rank mask i = j := by
  constructor
  · intro found
    have selected := mem_positions.mp (List.mem_of_getElem? found)
    have ranked := getElem?_positions_rank selected
    obtain ⟨inside, _⟩ := List.getElem?_eq_some_iff.mp ranked
    exact ⟨selected, (List.getElem?_inj inside (nodup_positions mask)).mp (ranked.trans found.symm)⟩
  · rintro ⟨selected, rfl⟩
    exact getElem?_positions_rank selected

/-- The ranks of the selected positions are the numbers below the size of the mask. -/
theorem exists_rank_iff {mask : Word} {j : Nat} :
    (∃ i, mask.getLsbD i = true ∧ rank mask i = j) ↔ j < size mask := by
  constructor
  · rintro ⟨i, place⟩
    obtain ⟨inside, _⟩ := List.getElem?_eq_some_iff.mp (getElem?_positions.mpr place)
    exact inside
  · intro inside
    exact ⟨_, getElem?_positions.mp (List.getElem?_eq_getElem inside)⟩

/-- Counting the selected bits finds as many as the walk over them. -/
theorem toNat_cpop (mask : Word) : mask.cpop.toNat = size mask := by
  have counted (i : Nat) : mask.cpopNatRec i 0 = rank mask i := by
    induction i with
    | zero => rfl
    | succ i ih =>
        rw [BitVec.cpopNatRec_succ, BitVec.cpopNatRec_add, ih, rank, rank, List.range_succ,
          List.countP_append, List.countP_singleton]
        cases mask.getLsbD i <;> simp
  rw [BitVec.toNat_cpop, counted]
  exact List.countP_eq_length_filter

/-- A selected bit of a scattered value is the bit of the value at its rank. -/
theorem getLsbD_scatter (value mask : Word) (i : Nat) :
    (scatter value mask).getLsbD i = (mask.getLsbD i && value.getLsbD (rank mask i)) := by
  rw [Bool.eq_iff_iff, scatter, getLsbD_route, List.any_map, List.any_eq_true, Bool.and_eq_true]
  constructor
  · rintro ⟨⟨position, j⟩, walked, routed⟩
    have place := getElem?_positions.mp (List.mk_mem_zipIdx_iff_getElem?.mp walked)
    simp only [Function.comp, Prod.swap_prod_mk, BitVec.getLsbD_twoPow, Bool.and_eq_true,
      decide_eq_true_eq] at routed
    obtain ⟨set, _, rfl⟩ := routed
    exact ⟨place.1, place.2 ▸ set⟩
  · rintro ⟨selected, set⟩
    refine ⟨(i, rank mask i),
      List.mk_mem_zipIdx_iff_getElem?.mpr (getElem?_positions_rank selected), ?_⟩
    simp [set, BitVec.lt_of_getLsbD selected]

/-- A scattered value lies within its mask. -/
theorem scatter_and_mask (value mask : Word) :
    scatter value mask &&& mask = scatter value mask := by
  apply BitVec.eq_of_getLsbD_eq
  intro i _
  rw [BitVec.getLsbD_and, getLsbD_scatter]
  cases mask.getLsbD i <;> simp

/-- A bit of a gathered value is the selected bit of that rank. -/
theorem getLsbD_gather {word mask : Word} {j : Nat} :
    (gather word mask).getLsbD j = true ↔
      ∃ i, mask.getLsbD i = true ∧ rank mask i = j ∧ word.getLsbD i = true := by
  rw [gather, getLsbD_route, List.any_eq_true]
  constructor
  · rintro ⟨⟨i, place⟩, walked, routed⟩
    have ranked := getElem?_positions.mp (List.mk_mem_zipIdx_iff_getElem?.mp walked)
    simp only [BitVec.getLsbD_twoPow, Bool.and_eq_true, decide_eq_true_eq] at routed
    obtain ⟨set, _, rfl⟩ := routed
    exact ⟨i, ranked.1, ranked.2, set⟩
  · rintro ⟨i, selected, rfl, set⟩
    have bound := Nat.lt_of_le_of_lt (rank_le mask i) (BitVec.lt_of_getLsbD selected)
    refine ⟨(i, rank mask i),
      List.mk_mem_zipIdx_iff_getElem?.mpr (getElem?_positions_rank selected), ?_⟩
    simp [set, bound]

/-- A gathered value has no more bits than were selected. -/
theorem gather_lt (word mask : Word) : (gather word mask).toNat < 2 ^ size mask := by
  apply Nat.lt_pow_two_of_testBit
  intro j beyond
  rw [BitVec.testBit_toNat, Bool.eq_false_iff]
  intro set
  obtain ⟨i, selected, rfl, _⟩ := getLsbD_gather.mp set
  obtain ⟨inside, _⟩ := List.getElem?_eq_some_iff.mp (getElem?_positions_rank selected)
  exact Nat.not_lt_of_le beyond inside

/-- Gathering loses only what the mask does not select. -/
theorem scatter_gather (word mask : Word) : scatter (gather word mask) mask = word &&& mask := by
  apply BitVec.eq_of_getLsbD_eq
  intro i _
  rw [getLsbD_scatter, BitVec.getLsbD_and]
  cases selected : mask.getLsbD i with
  | false => simp
  | true =>
      rw [Bool.true_and, Bool.and_true, Bool.eq_iff_iff, getLsbD_gather]
      constructor
      · rintro ⟨other, chosen, same, set⟩
        have places := getElem?_positions_rank chosen
        rw [same, getElem?_positions_rank selected] at places
        obtain rfl := Option.some.inj places
        exact set
      · intro set
        exact ⟨i, selected, rfl, set⟩

end Mask

end RegisterLink
