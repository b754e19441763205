import RegisterLink.Error
import RegisterLink.Idiom
import RegisterLink.Program
import RegisterLink.Trace

/-!
# Compilation of traces

A trace becomes a program that has the same effect on memory without any
exchange with the device.  The trace is taken in once, event by event, into a
draft.  Adjacent word writes to one address are held back and merged, so that
they come out as one statement in its cheapest idiom; any other event lets the
held write go first.  A successful wait becomes a busy loop, and a trace whose
waits are not properly bracketed has no program.
-/

namespace RegisterLink

/-- Adjacent word writes to one address, each bit with the last value written to it. -/
structure Merge where
  address : Word
  mask : Word
  value : Word
  /-- The label of the first write. -/
  label : String
  /-- The labels of the later writes, in order. -/
  further : List String

namespace Merge

def start (address mask value : Word) (label : String) : Merge where
  address := address
  mask := mask
  value := value &&& mask
  label := label
  further := []

def add (merge : Merge) (mask value : Word) (label : String) : Merge :=
  { merge with
    mask := merge.mask ||| mask
    value := maskedWrite mask value merge.value
    further := merge.further ++ [label] }

end Merge

/-- A program in the making. -/
structure Draft where
  lines : List Line := []
  /-- The shared pointer has been declared. -/
  declared : Bool := false
  /-- Writes held back for merging. -/
  pending : Option Merge := none
  /-- A wait is open. -/
  waiting : Bool := false

namespace Draft

def emit (draft : Draft) (instruction : Instruction) (label : Option String) : Draft :=
  { draft with lines := draft.lines ++ [⟨some instruction, label⟩] }

/-- Points the shared pointer at a register; only the first such statement declares it. -/
def bind (draft : Draft) (address : Word) : Draft :=
  { draft.emit (.bind address (!draft.declared)) none with declared := true }

/-- Labels that no instruction carries become comment lines. -/
def comment (draft : Draft) (labels : List String) : Draft :=
  { draft with lines := draft.lines ++ labels.map fun label => ⟨none, some label⟩ }

/-- Emits merged writes in their cheapest idiom. -/
def emitMerge (draft : Draft) (merge : Merge) : Draft :=
  match Idiom.cheapest merge.mask merge.value with
  | .overwrite => draft.emit (.store merge.address .word merge.value) merge.label
  | .setBit position => draft.emit (.setBit merge.address position) merge.label
  | .clearBit position => draft.emit (.clearBit merge.address position) merge.label
  | .setAll => draft.emit (.setMask merge.address merge.mask) merge.label
  | .clearAll => draft.emit (.clearMask merge.address merge.mask) merge.label
  | .modify mask value => (draft.bind merge.address).emit (.modify mask value) merge.label

/-- Lets the held writes go. -/
def flush (draft : Draft) : Draft :=
  match draft.pending with
  | none => draft
  | some merge => ({ draft with pending := none }.emitMerge merge).comment merge.further

/-- Merges a word write with the held ones at its address, or holds it back itself. -/
def hold (draft : Draft) (address mask value : Word) (label : String) : Draft :=
  match draft.pending with
  | some merge =>
      if merge.address = address then
        { draft with pending := some (merge.add mask value label) }
      else { draft.flush with pending := some (.start address mask value label) }
  | none => { draft with pending := some (.start address mask value label) }

def step (draft : Draft) : Event → Except Error Draft
  | .write address .word mask value label => .ok (draft.hold address mask value label)
  | .write address width _ value label =>
      .ok (draft.flush.emit (.store address width (value &&& width.mask)) label)
  | .read address width label => .ok (draft.flush.emit (.load address width) label)
  | .barrier => .ok draft.flush
  | .waitBegin =>
      if draft.waiting then .error .danglingWait
      else .ok { draft.flush with waiting := true }
  | .waitEnd address mask value label =>
      if draft.waiting then
        let draft := { draft.flush with waiting := false }
        .ok ((draft.bind address).emit (.poll mask (Mask.scatter value mask)) label)
      else .error .danglingWait

def finish (draft : Draft) : Except Error Program :=
  if draft.waiting then .error .danglingWait else .ok ⟨draft.flush.lines⟩

end Draft

/-- The program of some events, if every wait among them is opened and closed in turn. -/
def Program.ofEvents (events : List Event) : Except Error Program :=
  events.foldlM Draft.step {} >>= Draft.finish

def Trace.compile (trace : Trace) : Except Error Program :=
  Program.ofEvents trace.events

end RegisterLink
