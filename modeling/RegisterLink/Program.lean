import RegisterLink.Width

/-!
# Programs

A program is a list of lines, each an instruction, a comment, or both.  An
instruction is one C statement on memory.  Statements that mention a register
twice reach it through one shared pointer, which a bind statement sets first.
-/

namespace RegisterLink

inductive Instruction where
  | store (address : Word) (width : Width) (value : Word)
  | setBit (address : Word) (position : Nat)
  | clearBit (address : Word) (position : Nat)
  | setMask (address mask : Word)
  | clearMask (address mask : Word)
  /-- Points the shared pointer at a register, declaring it if asked to. -/
  | bind (address : Word) (declares : Bool)
  /-- Replaces the bits of the mask in the bound register. -/
  | modify (mask value : Word)
  /-- Reads a value and drops it. -/
  | load (address : Word) (width : Width)
  /-- Reads the bound register until its masked bits are the expected ones. -/
  | poll (mask expected : Word)
  deriving DecidableEq

namespace Instruction

/-- The address that an instruction names itself. -/
def address? : Instruction → Option Word
  | store address _ _ => some address
  | setBit address _ => some address
  | clearBit address _ => some address
  | setMask address _ => some address
  | clearMask address _ => some address
  | bind address _ => some address
  | load address _ => some address
  | modify _ _ => none
  | poll _ _ => none

end Instruction

structure Line where
  instruction : Option Instruction
  label : Option String
  deriving DecidableEq

structure Program where
  lines : List Line
  deriving DecidableEq

namespace Program

/-- The instructions in execution order. -/
def instructions (program : Program) : List Instruction :=
  program.lines.filterMap Line.instruction

end Program

end RegisterLink
