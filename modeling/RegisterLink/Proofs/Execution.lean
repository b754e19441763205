import RegisterLink.Program
import RegisterLink.Proofs.ByteMemory
import RegisterLink.Trace

/-!
# What traces and programs do

A trace and a program both act on a memory by the byte, and both make
observations: what a read gave, and what a polled register held.  The meaning of
a trace is read off its events one at a time.  The meaning of a program is that
of its C statements, run on a machine that also has the shared pointer; a
statement that C leaves without meaning, such as using the pointer before its
declaration, stops the machine.
-/

namespace RegisterLink

/-- What shows of an execution besides the memory it leaves. -/
inductive Observation where
  | load (address : Word) (width : Width) (value : Word)
  /-- A register polled for the expected bits under a mask held `word`. -/
  | poll (address mask expected word : Word)
  deriving DecidableEq

namespace Observation

/-- A busy loop ends at its first look when the register holds the expected bits. -/
def Satisfied : Observation → Prop
  | load _ _ _ => True
  | poll _ mask expected word => word &&& mask = expected

end Observation

structure World where
  memory : ByteMemory
  /-- The observations made, in order. -/
  seen : List Observation := []

namespace World

def observe (world : World) (observation : Observation) : World :=
  { world with seen := world.seen ++ [observation] }

def store (world : World) (address : Word) (width : Width) (value : Word) : World :=
  { world with memory := world.memory.store address width value }

/-- Loads a word, changes it and stores it back. -/
def update (world : World) (address : Word) (change : Word → Word) : World :=
  world.store address .word (change (world.memory.load address .word))

theorem update_update (world : World) (address : Word) (first second : Word → Word) :
    (world.update address first).update address second =
      world.update address (fun word => second (first word)) := by
  simp only [update, store, ByteMemory.load_store, ByteMemory.store_store, Width.mask_word,
    BitVec.and_allOnes]

end World

/-- The effect of one access on memory, and what it shows. -/
def Event.replay (world : World) : Event → World
  | .read address width _ =>
      world.observe (.load address width (world.memory.load address width))
  | .write address .word mask value _ => world.update address (maskedWrite mask value)
  | .write address width _ value _ => world.store address width value
  | .waitBegin => world
  | .waitEnd address mask value _ =>
      world.observe
        (.poll address mask (Mask.scatter value mask) (world.memory.load address .word))
  | .barrier => world

/-- The world after the accesses of a trace, in order. -/
def Trace.replay (trace : Trace) (world : World) : World :=
  trace.events.foldl Event.replay world

/-- What the statements of a program run on. -/
structure Machine where
  world : World
  /-- Where the shared pointer points, once it is declared. -/
  pointer : Option Word := none

namespace Machine

def start (memory : ByteMemory) : Machine where
  world := { memory }

/-- Changes the word at an address. -/
def update (machine : Machine) (address : Word) (change : Word → Word) : Machine :=
  { machine with world := machine.world.update address change }

def observe (machine : Machine) (observation : Observation) : Machine :=
  { machine with world := machine.world.observe observation }

/--
One statement.  It has no meaning when it shifts by the width of a word or more,
declares the pointer again, or uses the pointer undeclared.
-/
def execute (machine : Machine) : Instruction → Option Machine
  | .store address width value =>
      some { machine with world := machine.world.store address width value }
  | .setBit address position =>
      if position < 32 then some (machine.update address (· ||| 1#32 <<< position)) else none
  | .clearBit address position =>
      if position < 32 then some (machine.update address (· &&& ~~~(1#32 <<< position))) else none
  | .setMask address mask => some (machine.update address (· ||| mask))
  | .clearMask address mask => some (machine.update address (· &&& ~~~mask))
  | .bind address declares =>
      if machine.pointer.isSome = declares then none
      else some { machine with pointer := some address }
  | .modify mask value =>
      machine.pointer.map fun address =>
        machine.update address fun word => (word &&& ~~~mask) ||| value
  | .load address width =>
      some (machine.observe (.load address width (machine.world.memory.load address width)))
  | .poll mask expected =>
      machine.pointer.map fun address =>
        machine.observe (.poll address mask expected (machine.world.memory.load address .word))

end Machine

/-- The machine after the statements of a program, unless one of them stops it. -/
def Program.run (program : Program) (machine : Machine) : Option Machine :=
  program.instructions.foldlM Machine.execute machine

namespace Program

/-- Later lines run on what the earlier ones left. -/
theorem run_append (first second : List Line) (machine : Machine) :
    run ⟨first ++ second⟩ machine = (run ⟨first⟩ machine).bind (run ⟨second⟩) := by
  simp only [run, instructions, List.filterMap_append, List.foldlM_append]
  rfl

/-- Comment lines do nothing. -/
theorem run_comments (labels : List String) (machine : Machine) :
    run ⟨labels.map fun label => ⟨none, some label⟩⟩ machine = some machine := by
  induction labels with
  | nil => rfl
  | cons label labels ih => exact ih

end Program

end RegisterLink
