import RegisterLink.Program.Compile
import RegisterLink.Proofs.Execution
import RegisterLink.Proofs.Rank

/-!
# Scattering and gathering are inverse

A value loses in its mask only what the mask has no room for, and a word loses
only what the mask does not select.  So whether a register holds a value under
a mask can be asked on either side: a busy loop compares the masked bits with
the scattered value, a reader the gathered bits with the value itself.
-/

namespace RegisterLink

namespace Mask

/-- Of a scattered value everything comes back that the mask has room for. -/
theorem toNat_gather_scatter (value mask : Word) :
    (gather (scatter value mask) mask).toNat = value.toNat % 2 ^ size mask := by
  apply Nat.eq_of_testBit_eq
  intro j
  rw [BitVec.testBit_toNat, Nat.testBit_mod_two_pow, BitVec.testBit_toNat, Bool.eq_iff_iff,
    getLsbD_gather, Bool.and_eq_true, decide_eq_true_iff, ← exists_rank_iff]
  constructor
  · rintro ⟨i, selected, rfl, set⟩
    rw [getLsbD_scatter, selected, Bool.true_and] at set
    exact ⟨⟨i, selected, rfl⟩, set⟩
  · rintro ⟨⟨i, selected, rfl⟩, set⟩
    refine ⟨i, selected, rfl, ?_⟩
    rw [getLsbD_scatter, selected, Bool.true_and, set]

theorem gather_scatter {value mask : Word} (room : value.toNat < 2 ^ size mask) :
    gather (scatter value mask) mask = value := by
  apply BitVec.eq_of_toNat_eq
  rw [toNat_gather_scatter, Nat.mod_eq_of_lt room]

/-- What the mask does not select is not gathered. -/
theorem gather_and_mask (word mask : Word) : gather (word &&& mask) mask = gather word mask := by
  rw [← scatter_gather, gather_scatter (gather_lt word mask)]

/-- A word holds a value under a mask when the value is what is gathered from it. -/
theorem and_mask_eq_scatter_iff {value mask : Word} (room : value.toNat < 2 ^ size mask)
    (word : Word) : word &&& mask = scatter value mask ↔ gather word mask = value := by
  constructor
  · intro held
    rw [← gather_and_mask, held, gather_scatter room]
  · rintro rfl
    exact (scatter_gather word mask).symm

/-- The busy loop for a wait ends when the awaited value is gathered from the polled word. -/
theorem polls_awaited {draft next : Draft} {address mask value : Word} {label : String}
    (room : value.toNat < 2 ^ size mask)
    (taken : draft.step (.waitEnd address mask value label) = .ok next) :
    ∃ expected, next.lines.getLast? = some ⟨some (.poll mask expected), some label⟩ ∧
      ∀ word, (Observation.poll address mask expected word).Satisfied ↔
        gather word mask = value := by
  rw [Draft.step] at taken
  split at taken
  case isFalse => cases taken
  case isTrue =>
    injection taken with made
    refine ⟨scatter value mask, ?_, and_mask_eq_scatter_iff room⟩
    rw [← made]
    exact List.getLast?_concat

/--
Bit `i` of a scattered value is the bit of the value at the rank of `i` under the
mask, bit `j` of a gathered value the bit of the word at the position of rank
`j`; so each undoes the other up to what the mask holds, and a compiled wait
ends exactly when its field reads the awaited value.
-/
theorem scatter_gather_inverse (mask : Word) :
    (∀ value i, (scatter value mask).getLsbD i = true ↔
      mask.getLsbD i = true ∧ value.getLsbD (rank mask i) = true) ∧
    (∀ word j, (gather word mask).getLsbD j = true ↔
      j < mask.cpop.toNat ∧
        ∃ i, (mask.getLsbD i = true ∧ rank mask i = j) ∧ word.getLsbD i = true) ∧
    (∀ value, (gather (scatter value mask) mask).toNat = value.toNat % 2 ^ mask.cpop.toNat) ∧
    (∀ word, scatter (gather word mask) mask = word &&& mask) ∧
    ∀ value : Word, value.toNat < 2 ^ mask.cpop.toNat →
      (∀ word, word &&& mask = scatter value mask ↔ gather word mask = value) ∧
      ∀ (draft next : Draft) (address : Word) (label : String),
        draft.step (.waitEnd address mask value label) = .ok next →
        ∃ expected, next.lines.getLast? = some ⟨some (.poll mask expected), some label⟩ ∧
          ∀ word, (Observation.poll address mask expected word).Satisfied ↔
            gather word mask = value := by
  rw [toNat_cpop]
  refine ⟨fun value i => ?scattered, fun word j => ?gathered,
    fun value => toNat_gather_scatter value mask, fun word => scatter_gather word mask,
    fun value room => ⟨and_mask_eq_scatter_iff room, ?_⟩⟩
  case scattered => rw [getLsbD_scatter, Bool.and_eq_true]
  case gathered =>
    rw [getLsbD_gather]
    constructor
    · rintro ⟨i, selected, ranked, set⟩
      exact ⟨exists_rank_iff.mp ⟨i, selected, ranked⟩, i, ⟨selected, ranked⟩, set⟩
    · rintro ⟨_, i, ⟨selected, ranked⟩, set⟩
      exact ⟨i, selected, ranked, set⟩
  exact fun draft next address label taken => polls_awaited room taken

/-- A value over three bits that are not adjacent, with every other bit of the word set. -/
theorem scatter_gather_inverse_spread :
    (5#32).toNat < 2 ^ (0xb0#32).cpop.toNat ∧
      (0xffffffdf#32 &&& 0xb0#32 = scatter 5#32 0xb0#32 ↔ gather 0xffffffdf#32 0xb0#32 = 5#32) ∧
      ∃ next, ({ waiting := true } : Draft).step (.waitEnd 0x40000000#32 0xb0#32 5#32 "ready") =
          .ok next ∧
        ∃ expected, next.lines.getLast? = some ⟨some (.poll 0xb0#32 expected), some "ready"⟩ ∧
          ∀ word, (Observation.poll 0x40000000#32 0xb0#32 expected word).Satisfied ↔
            gather word 0xb0#32 = 5#32 := by
  have room : (5#32).toNat < 2 ^ (0xb0#32).cpop.toNat := by decide
  obtain ⟨_, _, _, _, awaited⟩ := scatter_gather_inverse 0xb0#32
  obtain ⟨held, polled⟩ := awaited 5#32 room
  exact ⟨room, held _, _, rfl, polled { waiting := true } _ _ _ rfl⟩

end Mask

end RegisterLink
