import RegisterLink.Program.Compile
import RegisterLink.Proofs.Execution

/-!
# Compilation preserves meaning

The compiler holds writes back and merges them, so its lines lag behind the
trace.  A draft tracks a world when its lines, run from the start, reach a
machine from which the held write leads to that world.  Every event keeps this
relation with the world moved on by the event, and at the end nothing is held.
-/

namespace RegisterLink

namespace Merge

/-- What the merged writes do together. -/
def replay (merge : Merge) (world : World) : World :=
  world.update merge.address (maskedWrite merge.mask merge.value)

theorem replay_start (address mask value : Word) (label : String) (world : World) :
    (start address mask value label).replay world =
      world.update address (maskedWrite mask value) := by
  have same : maskedWrite mask (value &&& mask) = maskedWrite mask value :=
    funext (maskedWrite_and mask value)
  rw [replay, start, same]

/-- A write added to held ones comes after them. -/
theorem replay_add (merge : Merge) (mask value : Word) (label : String) (world : World) :
    (merge.add mask value label).replay world =
      (merge.replay world).update merge.address (maskedWrite mask value) := by
  simp only [replay, add, World.update_update, maskedWrite_maskedWrite]

end Merge

namespace Draft

/--
The lines of a draft, run from `start`, reach `machine`, and what is held back
leads from there to `world`.
-/
structure Tracks (draft : Draft) (start machine : Machine) (world : World) : Prop where
  ran : Program.run ⟨draft.lines⟩ start = some machine
  declared : machine.pointer.isSome = draft.declared
  held : draft.pending.elim machine.world (·.replay machine.world) = world

variable {draft : Draft} {start machine next : Machine} {world : World}

/-- A draft that holds nothing has caught up. -/
theorem Tracks.caught_up (tracks : draft.Tracks start machine world)
    (settled : draft.pending = none) : machine.world = world := by
  have held := tracks.held
  rwa [settled] at held

/-- An emitted statement is run next. -/
theorem Tracks.emit (tracks : draft.Tracks start machine world) (settled : draft.pending = none)
    {instruction : Instruction} {label : Option String} {after : World}
    (executed : machine.execute instruction = some { machine with world := after }) :
    (draft.emit instruction label).Tracks start { machine with world := after } after where
  ran := by
    rw [Draft.emit, Program.run_append, tracks.ran]
    simp [Program.run, Program.instructions, executed]
  declared := tracks.declared
  held := by rw [Draft.emit, settled]; rfl

/-- A bind is legal wherever it is emitted, and leaves the pointer at its address. -/
theorem Tracks.bind (tracks : draft.Tracks start machine world) (settled : draft.pending = none)
    (address : Word) :
    (draft.bind address).Tracks start { machine with pointer := some address } world where
  ran := by
    have legal : machine.execute (.bind address (!draft.declared)) =
        some { machine with pointer := some address } := by
      rw [Machine.execute, tracks.declared, if_neg (by cases draft.declared <;> decide)]
    rw [Draft.bind, Draft.emit, Program.run_append, tracks.ran]
    simp [Program.run, Program.instructions, legal]
  declared := rfl
  held := by
    rw [Draft.bind, Draft.emit, settled]
    exact tracks.caught_up settled

theorem Tracks.comment (tracks : draft.Tracks start machine world) (labels : List String) :
    (draft.comment labels).Tracks start machine world where
  ran := by
    rw [Draft.comment, Program.run_append, tracks.ran]
    exact Program.run_comments labels machine
  declared := tracks.declared
  held := tracks.held

/-- Merged writes are emitted as statements that do the same. -/
theorem Tracks.emitMerge (tracks : draft.Tracks start machine world)
    (settled : draft.pending = none) (merge : Merge) :
    ∃ next, (draft.emitMerge merge).Tracks start next (merge.replay world) := by
  have same : world.update merge.address
      ((Idiom.cheapest merge.mask merge.value).apply merge.mask merge.value) =
        merge.replay world := by
    rw [Merge.replay, funext (Idiom.apply_cheapest merge.mask merge.value)]
  obtain rfl := tracks.caught_up settled
  rw [← same, Draft.emitMerge]
  cases chosen : Idiom.cheapest merge.mask merge.value with
  | overwrite => exact ⟨_, tracks.emit settled rfl⟩
  | setBit position =>
      have inside := Idiom.position_lt_of_cheapest (.inl chosen)
      exact ⟨_, tracks.emit settled (if_pos inside)⟩
  | clearBit position =>
      have inside := Idiom.position_lt_of_cheapest (.inr chosen)
      exact ⟨_, tracks.emit settled (if_pos inside)⟩
  | setAll => exact ⟨_, tracks.emit settled rfl⟩
  | clearAll => exact ⟨_, tracks.emit settled rfl⟩
  | modify mask value =>
      -- the pointer is bound right before, so the statement goes to the address of the writes
      exact ⟨_, (tracks.bind settled merge.address).emit settled rfl⟩

theorem pending_emitMerge (draft : Draft) (merge : Merge) :
    (draft.emitMerge merge).pending = draft.pending := by
  rw [Draft.emitMerge]
  split <;> rfl

@[simp] theorem pending_flush (draft : Draft) : draft.flush.pending = none := by
  rw [Draft.flush]
  split
  case h_1 none => exact none
  case h_2 => rw [Draft.comment, pending_emitMerge]

/-- Letting the held writes go leaves the world tracked as it was. -/
theorem Tracks.flush (tracks : draft.Tracks start machine world) :
    ∃ next, draft.flush.Tracks start next world := by
  cases pending : draft.pending with
  | none =>
      rw [Draft.flush, pending]
      exact ⟨machine, tracks⟩
  | some merge =>
      have emptied : ({ draft with pending := none } : Draft).Tracks start machine machine.world :=
        ⟨tracks.ran, tracks.declared, rfl⟩
      obtain ⟨next, emitted⟩ := emptied.emitMerge rfl merge
      have held : merge.replay machine.world = world := by
        have held := tracks.held
        rwa [pending] at held
      rw [Draft.flush, pending]
      exact ⟨next, held ▸ emitted.comment merge.further⟩

/-- A draft that has caught up may hold a write back. -/
theorem Tracks.holdFirst (tracks : draft.Tracks start machine world)
    (settled : draft.pending = none) (address mask value : Word) (label : String) :
    ({ draft with pending := some (.start address mask value label) } : Draft).Tracks start machine
      (world.update address (maskedWrite mask value)) where
  ran := tracks.ran
  declared := tracks.declared
  held := (Merge.replay_start address mask value label machine.world).trans
    (tracks.caught_up settled ▸ rfl)

/-- Holding a word write back accounts for it. -/
theorem Tracks.hold (tracks : draft.Tracks start machine world) (address mask value : Word)
    (label : String) :
    ∃ next, (draft.hold address mask value label).Tracks start next
      (world.update address (maskedWrite mask value)) := by
  rw [Draft.hold]
  cases pending : draft.pending with
  | none => exact ⟨machine, tracks.holdFirst pending address mask value label⟩
  | some merge =>
      have held : merge.replay machine.world = world := by
        have held := tracks.held
        rwa [pending] at held
      by_cases same : merge.address = address
      · refine ⟨machine, ?_⟩
        simp only [if_pos same]
        refine ⟨tracks.ran, tracks.declared, ?_⟩
        rw [← same, ← held]
        exact merge.replay_add mask value label machine.world
      · obtain ⟨next, flushed⟩ := tracks.flush
        simp only [if_neg same]
        exact ⟨next, flushed.holdFirst draft.pending_flush address mask value label⟩

/-- A narrow write is emitted at once, its value cut to the width. -/
theorem Tracks.storeNarrow (tracks : draft.Tracks start machine world)
    (settled : draft.pending = none) (address : Word) (width : Width) (value : Word)
    (label : String) :
    ∃ next, (draft.emit (.store address width (value &&& width.mask)) label).Tracks start next
      (world.store address width value) := by
  obtain rfl := tracks.caught_up settled
  have same : machine.world.store address width (value &&& width.mask) =
      machine.world.store address width value := by
    rw [World.store, ByteMemory.store_and_mask, World.store]
  rw [← same]
  exact ⟨_, tracks.emit settled rfl⟩

/-- One event moves the tracked world on by that event. -/
theorem Tracks.step (tracks : draft.Tracks start machine world) {event : Event} {stepped : Draft}
    (taken : draft.step event = .ok stepped) :
    ∃ next, stepped.Tracks start next (event.replay world) := by
  obtain ⟨caught, flushed⟩ := tracks.flush
  have settled := draft.pending_flush
  obtain rfl := flushed.caught_up settled
  cases event with
  | read address width label =>
      cases taken
      exact ⟨_, flushed.emit settled rfl⟩
  | write address width mask value label =>
      cases width with
      | word =>
          cases taken
          exact tracks.hold address mask value label
      | byte =>
          cases taken
          exact flushed.storeNarrow settled address .byte value label
      | half =>
          cases taken
          exact flushed.storeNarrow settled address .half value label
  | waitBegin =>
      rw [Draft.step] at taken
      split at taken
      · cases taken
      · cases taken
        exact ⟨caught, flushed.ran, flushed.declared, flushed.held⟩
  | waitEnd address mask value label =>
      rw [Draft.step] at taken
      split at taken
      · cases taken
        have closed :
            ({ draft.flush with waiting := false } : Draft).Tracks start caught caught.world :=
          ⟨flushed.ran, flushed.declared, flushed.held⟩
        exact ⟨_, (closed.bind settled address).emit settled rfl⟩
      · cases taken
  | barrier =>
      cases taken
      exact ⟨caught, flushed⟩

/-- A run over some events moves the tracked world on by all of them. -/
theorem Tracks.run (events : List Event) :
    ∀ {draft done : Draft} {machine : Machine} {world : World},
      draft.Tracks start machine world → events.foldlM Draft.step draft = .ok done →
        ∃ next, done.Tracks start next (events.foldl Event.replay world) := by
  induction events with
  | nil =>
      intro draft done machine world tracks taken
      cases taken
      exact ⟨machine, tracks⟩
  | cons event events ih =>
      intro draft done machine world tracks taken
      rw [List.foldlM_cons] at taken
      cases first : draft.step event with
      | error error =>
          rw [first] at taken
          cases taken
      | ok stepped =>
          rw [first] at taken
          obtain ⟨next, moved⟩ := tracks.step first
          exact ih moved taken

/-- The program of a finished draft reaches the tracked world. -/
theorem Tracks.finish (tracks : draft.Tracks start machine world) {program : Program}
    (finished : draft.finish = .ok program) :
    ∃ next, program.run start = some next ∧ next.world = world := by
  obtain ⟨next, flushed⟩ := tracks.flush
  rw [Draft.finish] at finished
  split at finished
  · cases finished
  · cases finished
    exact ⟨next, flushed.ran, flushed.caught_up draft.pending_flush⟩

/-- Nothing has been compiled yet, and nothing has happened. -/
theorem tracks_empty (memory : ByteMemory) :
    ({} : Draft).Tracks (.start memory) (.start memory) { memory } :=
  ⟨rfl, rfl, rfl⟩

end Draft

/--
A compiled trace does what the trace does: from every memory its program runs
through, leaves the same memory at every address, and makes the same
observations in the same order.
-/
theorem Trace.compile_preserves_meaning {trace : Trace} {program : Program}
    (compiled : trace.compile = .ok program) (memory : ByteMemory) :
    ∃ machine, program.run (.start memory) = some machine ∧
      machine.world = trace.replay { memory } := by
  rw [Trace.compile, Program.ofEvents] at compiled
  cases run : trace.events.foldlM Draft.step {} with
  | error error =>
      rw [run] at compiled
      cases compiled
  | ok draft =>
      rw [run] at compiled
      obtain ⟨machine, tracks⟩ := Draft.Tracks.run trace.events (Draft.tracks_empty memory) run
      exact tracks.finish compiled

/-- Merged, narrow and overlapping writes around a wait, at the end of the address space. -/
def Trace.overlapping : Trace where
  events := [
    .write 0xfffffffc#32 .word 0x3#32 0x3#32 "first",
    .write 0xfffffffc#32 .word 0x6#32 0x0#32 "second",
    .write 0xfffffffe#32 .half 0x1#32 0x1abcd#32 "half",
    .waitBegin,
    .write 0xfffffffe#32 .word 0x10000#32 0xffffffff#32 "round the end",
    .waitEnd 0x0#32 0x300#32 0x2#32 "ready",
    .read 0xffffffff#32 .word "across the end"]

theorem Trace.compile_preserves_meaning_overlapping :
    let program : Program := ⟨[
      ⟨some (.bind 0xfffffffc#32 true), none⟩,
      ⟨some (.modify 0x7#32 0x1#32), some "first"⟩,
      ⟨none, some "second"⟩,
      ⟨some (.store 0xfffffffe#32 .half 0xabcd#32), some "half"⟩,
      ⟨some (.setBit 0xfffffffe#32 16), some "round the end"⟩,
      ⟨some (.bind 0x0#32 false), none⟩,
      ⟨some (.poll 0x300#32 0x200#32), some "ready"⟩,
      ⟨some (.load 0xffffffff#32 .word), some "across the end"⟩]⟩
    overlapping.compile = .ok program ∧
      ∃ machine, program.run (.start fun _ => 0x5a#8) = some machine ∧
        machine.world = overlapping.replay { memory := fun _ => 0x5a#8 } :=
  ⟨rfl, Trace.compile_preserves_meaning rfl _⟩

end RegisterLink
