import RegisterLink.Proofs.Compilation
import RegisterLink.Proofs.Rank
import RegisterLink.Proofs.WordMemory

/-!
# Faithful traces

A trace is faithful to a word memory when it has a program, when its accesses
lead from the memory it began with to that one, and when every wait in it finds
what it waited for.  A recorded access keeps the trace faithful to what the
access did to the device, and a faithful trace is as good as its program.
-/

namespace RegisterLink

namespace Draft

variable {draft : Draft}

theorem waiting_emitMerge (draft : Draft) (merge : Merge) :
    (draft.emitMerge merge).waiting = draft.waiting := by
  rw [emitMerge]
  split <;> rfl

@[simp] theorem waiting_flush (draft : Draft) : draft.flush.waiting = draft.waiting := by
  rw [flush]
  split
  · rfl
  · exact waiting_emitMerge _ _

theorem waiting_hold (draft : Draft) (address mask value : Word) (label : String) :
    (draft.hold address mask value label).waiting = draft.waiting := by
  rw [hold]
  split
  · split
    · rfl
    · exact waiting_flush draft
  · rfl

/-- An event is taken in whenever a wait is open or none is, as `before` says. -/
def Takes (event : Event) (before after : Bool) : Prop :=
  ∀ draft : Draft, draft.waiting = before →
    ∃ next, draft.step event = .ok next ∧ next.waiting = after

theorem takes_read (address : Word) (width : Width) (label : String) (waiting : Bool) :
    Takes (.read address width label) waiting waiting :=
  fun draft same => ⟨_, rfl, draft.waiting_flush.trans same⟩

theorem takes_barrier (waiting : Bool) : Takes .barrier waiting waiting :=
  fun draft same => ⟨_, rfl, draft.waiting_flush.trans same⟩

theorem takes_write (address : Word) (width : Width) (mask value : Word) (label : String)
    (waiting : Bool) : Takes (.write address width mask value label) waiting waiting := by
  intro draft same
  cases width with
  | word => exact ⟨_, rfl, (draft.waiting_hold address mask value label).trans same⟩
  | byte => exact ⟨_, rfl, draft.waiting_flush.trans same⟩
  | half => exact ⟨_, rfl, draft.waiting_flush.trans same⟩

theorem takes_waitBegin : Takes .waitBegin false true := by
  intro draft closed
  refine ⟨{ draft.flush with waiting := true }, ?_, rfl⟩
  rw [step, closed]
  rfl

theorem takes_waitEnd (address mask value : Word) (label : String) :
    Takes (.waitEnd address mask value label) true false := by
  intro draft opened
  let closed : Draft := { draft.flush with waiting := false }
  refine ⟨(closed.bind address).emit (.poll mask (Mask.scatter value mask)) label, ?_, rfl⟩
  rw [step, if_pos opened]

end Draft

namespace World

/-- The memory holds these words, and every wait found what it waited for. -/
structure Shows (world : World) (words : BitVec 30 → Word) : Prop where
  memory : world.memory = .ofWords words
  satisfied : ∀ observation ∈ world.seen, observation.Satisfied

variable {world : World} {words : BitVec 30 → Word} {address : Word}

theorem Shows.observe (shows : world.Shows words) {observation : Observation}
    (satisfied : observation.Satisfied) : (world.observe observation).Shows words where
  memory := shows.memory
  satisfied := by
    intro other member
    obtain old | new := List.mem_append.mp member
    · exact shows.satisfied other old
    · obtain rfl := List.mem_singleton.mp new
      exact satisfied

/-- An aligned write does to the memory what the device does to its word. -/
theorem Shows.write (shows : world.Shows words) (aligned : Address.Aligned address)
    (width : Width) (mask value : Word) (label : String) :
    (Event.replay world (.write address width mask value label)).Shows fun index =>
      if index = Address.index address then maskedWrite (width.reach mask) value (words index)
      else words index := by
  have stored (width : Width) (value : Word) :=
    (congrArg (·.store address width value) shows.memory).trans
      (ByteMemory.store_ofWords words aligned width value)
  cases width with
  | word =>
      refine ⟨(stored .word _).trans ?_, shows.satisfied⟩
      rw [shows.memory, ByteMemory.load_ofWords words aligned, Width.and_mask_word]
      congr 1
      funext index
      split
      case isTrue same => rw [same, Width.mask_word, ← Mask.full, maskedWrite_full, Width.reach]
      case isFalse => rfl
  | byte => exact ⟨stored .byte value, shows.satisfied⟩
  | half => exact ⟨stored .half value, shows.satisfied⟩

/-- A wait finds what it waited for when the register holds it. -/
theorem Shows.wait (shows : world.Shows words) (aligned : Address.Aligned address)
    {mask value : Word}
    (found : words (Address.index address) &&& mask = Mask.scatter value mask) (label : String) :
    (Event.replay world (.waitEnd address mask value label)).Shows words := by
  apply shows.observe
  rw [Observation.Satisfied, shows.memory, ByteMemory.load_ofWords words aligned,
    Width.and_mask_word, found]

end World

namespace Trace

/-- The events are taken in, and leave a wait open or none. -/
def Drafted (events : List Event) (waiting : Bool) : Prop :=
  ∃ draft : Draft, events.foldlM Draft.step {} = .ok draft ∧ draft.waiting = waiting

theorem Drafted.append {events : List Event} {before after : Bool}
    (drafted : Drafted events before) {event : Event} (takes : Draft.Takes event before after) :
    Drafted (events ++ [event]) after := by
  obtain ⟨draft, taken, same⟩ := drafted
  obtain ⟨next, stepped, done⟩ := takes draft same
  refine ⟨next, ?_, done⟩
  rw [List.foldlM_append, taken]
  exact (bind_pure _).trans stepped

theorem Drafted.compiles {events : List Event} (drafted : Drafted events false)
    (waiting : Bool) : ∃ program, (⟨events, waiting⟩ : Trace).compile = .ok program := by
  obtain ⟨draft, taken, closed⟩ := drafted
  refine ⟨⟨draft.flush.lines⟩, ?_⟩
  rw [compile, Program.ofEvents, taken]
  change draft.finish = _
  rw [Draft.finish, closed]
  rfl

structure Faithful (trace : Trace) (start : ByteMemory) (words : BitVec 30 → Word) : Prop where
  closed : trace.waiting = false
  drafted : Drafted trace.events false
  shows : (trace.replay { memory := start }).Shows words

theorem replay_push (trace : Trace) (event : Event) (world : World) :
    (trace.push event).replay world = event.replay (trace.replay world) :=
  List.foldl_append

variable {trace : Trace} {start : ByteMemory} {words : BitVec 30 → Word} {address : Word}

/-- A trace that was just opened is faithful to the memory it begins with. -/
theorem faithful_empty (words : BitVec 30 → Word) :
    ({} : Trace).Faithful (.ofWords words) words where
  closed := rfl
  drafted := ⟨{}, rfl, rfl⟩
  shows := ⟨rfl, fun _ member => nomatch member⟩

/-- What is entered outside of waits is faithful to what it does. -/
theorem Faithful.push (faithful : trace.Faithful start words) {event : Event}
    (takes : Draft.Takes event false false) {next : BitVec 30 → Word}
    (shows : (event.replay (trace.replay { memory := start })).Shows next) :
    (trace.push event).Faithful start next where
  closed := faithful.closed
  drafted := faithful.drafted.append takes
  shows := by rwa [replay_push]

theorem Faithful.read (faithful : trace.Faithful start words) (address : Word) (width : Width)
    (label : String) : (trace.read address width label).Faithful start words := by
  rw [Trace.read, faithful.closed, if_neg Bool.false_ne_true]
  exact faithful.push (Draft.takes_read address width label false)
    (faithful.shows.observe trivial)

theorem Faithful.barrier (faithful : trace.Faithful start words) :
    trace.barrier.Faithful start words :=
  faithful.push (Draft.takes_barrier false) faithful.shows

theorem Faithful.write (faithful : trace.Faithful start words) (aligned : Address.Aligned address)
    (width : Width) (mask value : Word) (label : String) :
    (trace.write address width mask value label).Faithful start fun index =>
      if index = Address.index address then maskedWrite (width.reach mask) value (words index)
      else words index :=
  faithful.push (Draft.takes_write address width mask value label false)
    (faithful.shows.write aligned width mask value label)

/-- A wait that succeeded is entered as a whole. -/
theorem Faithful.wait (faithful : trace.Faithful start words) (aligned : Address.Aligned address)
    {mask value : Word}
    (found : words (Address.index address) &&& mask = Mask.scatter value mask) (label : String) :
    (trace.beginWait.endWait address mask value label).Faithful start words where
  closed := rfl
  drafted := (faithful.drafted.append Draft.takes_waitBegin).append
    (Draft.takes_waitEnd address mask value label)
  shows := by
    have opened := replay_push trace .waitBegin { memory := start }
    have ended := replay_push (trace.push .waitBegin) (.waitEnd address mask value label)
      { memory := start }
    change ((trace.push .waitBegin).push _).replay _ |>.Shows words
    rw [ended, opened]
    exact faithful.shows.wait aligned found label

/-- The opening taken back is the latest, wherever it stands. -/
theorem abortWait_opened (before : List Event) {later : List Event}
    (latest : Event.waitBegin ∉ later) :
    (⟨before ++ .waitBegin :: later, true⟩ : Trace).abortWait = ⟨before ++ later, false⟩ := by
  have turned : (before ++ Event.waitBegin :: later).reverse =
      later.reverse ++ .waitBegin :: before.reverse := by
    rw [List.reverse_append, List.reverse_cons, List.append_assoc, List.singleton_append]
  have erased : ((before ++ Event.waitBegin :: later).reverse.erase .waitBegin).reverse =
      before ++ later := by
    rw [turned, List.erase_append_right _ (mt List.mem_reverse.mp latest), List.erase_cons_head,
      List.reverse_append, List.reverse_reverse, List.reverse_reverse]
  rw [abortWait, if_pos rfl]
  simp only [erased]

/-- A wait that failed leaves no trace. -/
theorem abortWait_beginWait (closed : trace.waiting = false) :
    trace.beginWait.abortWait = trace := by
  have forgotten := abortWait_opened trace.events List.not_mem_nil
  rw [List.append_nil, ← closed] at forgotten
  exact forgotten

/-- A faithful trace has a program, which runs and does what the trace did. -/
theorem Faithful.compile (faithful : trace.Faithful start words) :
    ∃ program machine, trace.compile = .ok program ∧
      program.run (.start start) = some machine ∧ machine.world.Shows words := by
  obtain ⟨draft, taken, closed⟩ := faithful.drafted
  obtain ⟨reached, tracks⟩ := Draft.Tracks.run trace.events (Draft.tracks_empty start) taken
  have finished : draft.finish = .ok ⟨draft.flush.lines⟩ := by
    rw [Draft.finish, closed]
    rfl
  obtain ⟨machine, ran, same⟩ := tracks.finish finished
  refine ⟨_, machine, ?_, ran, ?_⟩
  · rw [Trace.compile, Program.ofEvents, taken]
    exact finished
  · rw [same]
    exact faithful.shows

end Trace

end RegisterLink
