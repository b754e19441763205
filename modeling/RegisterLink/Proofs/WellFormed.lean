import RegisterLink.Proofs.Blocks
import RegisterLink.Proofs.Width

/-!
# Well-formed programs

Statements share one pointer, so what a program says about it has to be right
across all of its lines.  Whatever was recorded, the first bind declares the
pointer and no other does, and what goes through the pointer stands directly
behind the bind to its own register.  The operands are within what their
statements are for.
-/

namespace RegisterLink

namespace Instruction

/-- Whether a bind declares the shared pointer. -/
def declares? : Instruction → Option Bool
  | bind _ declares => some declares
  | _ => none

/-- It accesses memory, as opposed to a bind. -/
def isAccess (instruction : Instruction) : Bool := instruction.declares?.isNone

/-- The operands are within what the statement is for. -/
def InRange : Instruction → Prop
  | store _ width value => value.toNat < 2 ^ width.bits
  | setBit _ position => position < 32
  | clearBit _ position => position < 32
  | modify mask value =>
      value &&& mask = value ∧ value ≠ 0#32 ∧ mask ≠ value ∧ mask ≠ Mask.full
  | poll mask expected => expected &&& mask = expected
  | _ => True

end Instruction

namespace Operation

variable (address mask value : Word)

theorem declares_statement (operation : Operation) :
    (operation.statement address).declares? = none := by
  cases operation <;> rfl

/-- The statement for a word write has its operands in range, whatever is written. -/
theorem inRange_statement : ((write .word mask value).statement address).InRange := by
  rw [write]
  cases chosen : Idiom.cheapest mask value with
  | overwrite => exact value.isLt
  | setBit position =>
      simp only [statement, Idiom.toNat_position_of_cheapest (.inl chosen)]
      exact Idiom.position_lt_of_cheapest (.inl chosen)
  | clearBit position =>
      simp only [statement, Idiom.toNat_position_of_cheapest (.inr chosen)]
      exact Idiom.position_lt_of_cheapest (.inr chosen)
  | setAll => trivial
  | clearAll => trivial
  | modify replaced replacement => exact Idiom.mixed_of_cheapest_modify chosen

end Operation

namespace Block

theorem declares_instruction (block : Block) : block.instruction.declares? = none := by
  cases block with
  | run address first further => exact Operation.declares_statement address _
  | store address width mask value label => rfl
  | load address width label => rfl
  | wait address mask value label => rfl

theorem inRange_instruction (block : Block) : block.instruction.InRange := by
  cases block with
  | run address first further => exact Operation.inRange_statement address _ _
  | store address width mask value label => exact width.toNat_and_mask_lt value
  | load address width label => trivial
  | wait address mask value label => exact Mask.scatter_and_mask value mask

/-- The instructions for some blocks, where the shared pointer was declared before or was not. -/
def code (declared : Bool) : List Block → List Instruction
  | [] => []
  | block :: blocks =>
      if block.instruction.indirect then
        .bind block.address (!declared) :: block.instruction :: code true blocks
      else block.instruction :: code declared blocks

theorem instructions_listing (blocks : List Block) (declared : Bool) :
    (listing declared blocks).filterMap Line.instruction = code declared blocks := by
  induction blocks generalizing declared with
  | nil => rfl
  | cons block blocks ih =>
      have comments : (block.comments.map fun label => (⟨none, some label⟩ : Line)).filterMap
          Line.instruction = [] := by
        rw [List.filterMap_map]
        exact List.filterMap_eq_nil_iff.mpr fun _ _ => rfl
      rw [listing, List.filterMap_append, ih, lines, List.filterMap_append,
        List.filterMap_cons_some (show Line.instruction _ = _ from rfl), comments, code]
      split
      case isTrue indirect => rw [indirect, Bool.or_true]; rfl
      case isFalse direct => rw [Bool.eq_false_iff.mpr direct, Bool.or_false]; rfl

theorem inRange_code (blocks : List Block) (declared : Bool) :
    ∀ instruction ∈ code declared blocks, instruction.InRange := by
  fun_induction code declared blocks with
  | case1 => exact fun _ member => nomatch member
  | case2 declared block blocks indirect ih =>
      exact List.forall_mem_cons.mpr ⟨trivial, List.forall_mem_cons.mpr
        ⟨block.inRange_instruction, ih⟩⟩
  | case3 declared block blocks direct ih =>
      exact List.forall_mem_cons.mpr ⟨block.inRange_instruction, ih⟩

theorem declares_code (block : Block) (blocks : List Block) (declared : Bool) :
    (code declared (block :: blocks)).filterMap Instruction.declares? =
      if block.instruction.indirect then
        (!declared) :: (code true blocks).filterMap Instruction.declares?
      else (code declared blocks).filterMap Instruction.declares? := by
  have bound : Instruction.declares? (.bind block.address (!declared)) = some (!declared) := rfl
  rw [code]
  split
  · rw [List.filterMap_cons_some bound, List.filterMap_cons_none block.declares_instruction]
  · rw [List.filterMap_cons_none block.declares_instruction]

/-- Once the pointer is declared it is not declared again. -/
theorem declares_code_true (blocks : List Block) :
    ∀ declares ∈ (code true blocks).filterMap Instruction.declares?, declares = false := by
  induction blocks with
  | nil => exact fun _ member => nomatch member
  | cons block blocks ih =>
      rw [declares_code]
      split
      · exact List.forall_mem_cons.mpr ⟨rfl, ih⟩
      · exact ih

/-- The first bind declares the pointer. -/
theorem declares_code_false (blocks : List Block) {first : Bool} {others : List Bool}
    (binds : (code false blocks).filterMap Instruction.declares? = first :: others) :
    first = true ∧ ∀ other ∈ others, other = false := by
  induction blocks with
  | nil => cases binds
  | cons block blocks ih =>
      rw [declares_code] at binds
      split at binds
      · obtain ⟨rfl, rfl⟩ := List.cons.inj binds
        exact ⟨rfl, declares_code_true blocks⟩
      · exact ih binds

/--
The instruction that stands behind `before` is that of one of the blocks, the one
that has as many before it as there are accesses in `before`, and what stands
directly before it binds the pointer to the register of that block.
-/
def Bound (blocks : List Block) (before : List Instruction) (instruction : Instruction) : Prop :=
  ∃ earlier declares block, before = earlier ++ [.bind block.address declares] ∧
    blocks[earlier.countP Instruction.isAccess]? = some block ∧ block.instruction = instruction

/-- One more block in front, with its one access, changes nothing about it. -/
theorem Bound.behind {blocks : List Block} {before : List Instruction} {instruction : Instruction}
    (bound : Bound blocks before instruction) (block : Block) (front : List Instruction)
    (single : front.countP Instruction.isAccess = 1) :
    Bound (block :: blocks) (front ++ before) instruction := by
  obtain ⟨earlier, declares, own, rfl, place, same⟩ := bound
  refine ⟨front ++ earlier, declares, own, (List.append_assoc ..).symm, ?_, same⟩
  rwa [List.countP_append, single, Nat.add_comm, List.getElem?_cons_succ]

theorem countP_instruction (block : Block) :
    [block.instruction].countP Instruction.isAccess = 1 := by
  rw [List.countP_singleton, Instruction.isAccess, declares_instruction]
  rfl

/-- What goes through the pointer stands behind the bind to its own register. -/
theorem bound_code (blocks : List Block) (declared : Bool) :
    ∀ before instruction after, code declared blocks = before ++ instruction :: after →
      instruction.indirect = true → Bound blocks before instruction := by
  fun_induction code declared blocks with
  | case1 => exact fun before _ _ split => (List.append_ne_nil_of_right_ne_nil before
      (List.cons_ne_nil _ _) split.symm).elim
  | case2 declared block blocks indirect ih =>
      -- what is split off is the bind, the statement behind it, or something later
      rintro (_ | ⟨bind, _ | ⟨access, before⟩⟩) instruction after split through
      · obtain ⟨rfl, _⟩ := List.cons.inj split
        cases through
      · obtain ⟨rfl, rest⟩ := List.cons.inj split
        obtain ⟨rfl, _⟩ := List.cons.inj rest
        exact ⟨[], _, block, rfl, rfl, rfl⟩
      · obtain ⟨rfl, rest⟩ := List.cons.inj split
        obtain ⟨rfl, later⟩ := List.cons.inj rest
        exact (ih before instruction after later through).behind block [_, _]
          ((List.countP_cons_of_neg Bool.false_ne_true).trans block.countP_instruction)
  | case3 declared block blocks direct ih =>
      rintro (_ | ⟨access, before⟩) instruction after split through
      · obtain ⟨rfl, _⟩ := List.cons.inj split
        exact (direct through).elim
      · obtain ⟨rfl, later⟩ := List.cons.inj split
        exact (ih before instruction after later through).behind block [_]
          block.countP_instruction

end Block

/--
Whatever was recorded, every statement that goes through the shared pointer
stands directly behind the bind to the register that it was recorded for, the
first bind and no other declares the pointer, and all operands are in range.
-/
theorem Trace.compile_wellFormed {trace : Trace} {program : Program}
    (compiled : trace.compile = .ok program) :
    (∀ before instruction after, program.instructions = before ++ instruction :: after →
      instruction.indirect = true → Block.Bound (blocks trace.events) before instruction) ∧
    (∀ first others, program.instructions.filterMap Instruction.declares? = first :: others →
      first = true ∧ ∀ other ∈ others, other = false) ∧
    ∀ instruction ∈ program.instructions, instruction.InRange := by
  have coded : program.instructions = Block.code false (blocks trace.events) := by
    rw [Program.instructions, Program.lines_of_ofEvents compiled, Block.instructions_listing]
  rw [coded]
  refine ⟨Block.bound_code _ false, ?_, Block.inRange_code _ false⟩
  exact fun _ _ binds => Block.declares_code_false _ binds

theorem Trace.compile_wellFormed_mingled :
    ∃ program, mingled.compile = .ok program ∧
      program.instructions = [
        .bind 0x40000000#32 true, .modify 0xff#32 0xa2#32,
        .setBit 0x40000000#32 0, .clearMask 0x40000000#32 0x6#32,
        .clearMask 0x40000004#32 0x3#32, .load 0x40000004#32 .half,
        .store 0x40000008#32 .byte 0xa5#32,
        .bind 0x40000000#32 false, .poll 0x30#32 0x20#32] ∧
      Block.Bound (blocks mingled.events) (program.instructions.take 1)
        (.modify 0xff#32 0xa2#32) ∧
      Block.Bound (blocks mingled.events) (program.instructions.take 8)
        (.poll 0x30#32 0x20#32) ∧
      (∀ other ∈ (program.instructions.filterMap Instruction.declares?).tail, other = false) ∧
      ∀ instruction ∈ program.instructions, instruction.InRange := by
  have compiled : mingled.compile = .ok _ := rfl
  obtain ⟨bound, declared, inRange⟩ := compile_wellFormed compiled
  exact ⟨_, compiled, by decide +kernel, bound _ _ _ rfl rfl, bound _ _ [] rfl rfl,
    (declared true _ rfl).2, inRange⟩

end RegisterLink
