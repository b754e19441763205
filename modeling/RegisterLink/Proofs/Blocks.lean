import RegisterLink.Proofs.Brackets
import RegisterLink.Proofs.Rank

/-!
# Blocks of a trace

The events of a trace fall into blocks: the word writes to one address that
follow each other directly, and every other access by itself.  A program has one
statement for each block, in order, and a run of writes has the statement that
corresponds to the request for all of its writes at once.  The compiler builds
its program event by event; what it holds back is the run that it is in.
-/

namespace RegisterLink

/-- One word write of a run, the address apart. -/
structure WordWrite where
  mask : Word
  value : Word
  label : String
  deriving DecidableEq

namespace WordWrite

def event (address : Word) (write : WordWrite) : Event :=
  .write address .word write.mask write.value write.label

/-- The bits that some writes reach. -/
def reached (writes : List WordWrite) : Word :=
  .ofBits fun k => writes.any (·.mask.getLsbD k)

/-- The value that the last of the writes to reach a bit gives it. -/
def latestBit (writes : List WordWrite) (k : Nat) : Bool :=
  ((writes.filter (·.mask.getLsbD k)).getLast?.map (·.value.getLsbD k)).getD false

/-- What some writes leave in the bits that they reach. -/
def latest (writes : List WordWrite) : Word := .ofBits (latestBit writes)

variable (writes : List WordWrite) (write : WordWrite)

theorem reached_append : reached (writes ++ [write]) = reached writes ||| write.mask := by
  apply BitVec.eq_of_getLsbD_eq
  intro k bound
  rw [BitVec.getLsbD_or, reached, reached, Word.getLsbD_ofBits _ bound, Word.getLsbD_ofBits _ bound]
  simp

theorem latestBit_append (k : Nat) :
    latestBit (writes ++ [write]) k =
      if write.mask.getLsbD k then write.value.getLsbD k else latestBit writes k := by
  rw [latestBit, List.filter_append]
  split
  case isTrue inside => simp [inside]
  case isFalse outside => simp [outside, latestBit]

theorem latest_append :
    latest (writes ++ [write]) = maskedWrite write.mask write.value (latest writes) := by
  symm
  rw [maskedWrite_eq_iff]
  intro k bound
  rw [latest, latest, Word.getLsbD_ofBits _ bound, Word.getLsbD_ofBits _ bound, latestBit_append]

end WordWrite

namespace Operation

/-- The C statement that does to memory what the operation does on the device. -/
def statement (address : Word) : Operation → Instruction
  | load width => .load address width
  | store width value => .store address width value
  | setBit position => .setBit address position.toNat
  | clearBit position => .clearBit address position.toNat
  | setMask mask => .setMask address mask
  | clearMask mask => .clearMask address mask
  | modify mask value => .modify mask value

end Operation

/-- It names no address itself, and reaches its register through the shared pointer. -/
def Instruction.indirect (instruction : Instruction) : Bool := instruction.address?.isNone

inductive Block where
  /-- The word writes to one address that follow each other directly, at least one. -/
  | run (address : Word) (first : WordWrite) (further : List WordWrite)
  /-- A write narrower than a word. -/
  | store (address : Word) (width : Width) (mask value : Word) (label : String)
  | load (address : Word) (width : Width) (label : String)
  | wait (address mask value : Word) (label : String)
  deriving DecidableEq

namespace Block

def address : Block → Word
  | run address _ _ => address
  | store address _ _ _ _ => address
  | load address _ _ => address
  | wait address _ _ _ => address

/-- The statement for a block; that for a run is chosen as the request for it is. -/
def instruction : Block → Instruction
  | run address first further =>
      let writes := first :: further
      (Request.write address .word (WordWrite.reached writes) (WordWrite.latest writes)).operation
        |>.statement address
  | store address width _ value _ => .store address width (value &&& width.mask)
  | load address width _ => .load address width
  | wait _ mask value _ => .poll mask (Mask.scatter value mask)

def label : Block → String
  | run _ first _ => first.label
  | store _ _ _ _ label => label
  | load _ _ label => label
  | wait _ _ _ label => label

/-- The labels that are left when the statement has taken one. -/
def comments : Block → List String
  | run _ _ further => further.map WordWrite.label
  | _ => []

/-- The accesses that make up a block, in order. -/
def events : Block → List Event
  | run address first further => (first :: further).map (WordWrite.event address)
  | store address width mask value label => [.write address width mask value label]
  | load address width label => [.read address width label]
  | wait address mask value label => [.waitEnd address mask value label]

/-- The lines for a block, where the shared pointer was declared before or was not. -/
def lines (declared : Bool) (block : Block) : List Line :=
  (if block.instruction.indirect then [⟨some (.bind block.address (!declared)), none⟩] else []) ++
    ⟨some block.instruction, some block.label⟩ ::
      block.comments.map fun label => ⟨none, some label⟩

/-- The lines for some blocks, in order; the first bind among them declares the pointer. -/
def listing (declared : Bool) : List Block → List Line
  | [] => []
  | block :: blocks =>
      block.lines declared ++ listing (declared || block.instruction.indirect) blocks

end Block

/-- The word writes to an address that stand in front of some events, and the events behind. -/
def leading (address : Word) : List Event → List WordWrite × List Event
  | .write other .word mask value label :: events =>
      if other = address then
        let (writes, rest) := leading address events
        (⟨mask, value, label⟩ :: writes, rest)
      else ([], .write other .word mask value label :: events)
  | events => ([], events)

theorem leading_append (address : Word) (events : List Event) :
    (leading address events).1.map (WordWrite.event address) ++ (leading address events).2 =
      events := by
  fun_induction leading address events with
  | case1 mask value label events writes rest same ih =>
      rw [same] at ih
      exact congrArg (_ :: ·) ih
  | case2 => rfl
  | case3 => rfl

/-- No write of the run is left behind. -/
theorem leading_rest (address : Word) (events : List Event) (write : WordWrite)
    (rest : List Event) : (leading address events).2 ≠ write.event address :: rest := by
  fun_induction leading address events with
  | case1 mask value label events writes rest same ih =>
      rwa [same] at ih
  | case2 other mask value label events different =>
      intro same
      injection same with same
      injection same with same
      exact different same
  | case3 events unwritten =>
      rintro rfl
      exact unwritten address write.mask write.value write.label rest rfl

theorem length_leading_le (address : Word) (events : List Event) :
    (leading address events).2.length ≤ events.length := by
  have whole := congrArg List.length (leading_append address events)
  rw [List.length_append] at whole
  omega

/-- The blocks of some events, in order: a run goes on as long as its writes do. -/
def blocks : List Event → List Block
  | [] => []
  | .write address .word mask value label :: events =>
      .run address ⟨mask, value, label⟩ (leading address events).1 ::
        blocks (leading address events).2
  | .write address width mask value label :: events =>
      .store address width mask value label :: blocks events
  | .read address width label :: events => .load address width label :: blocks events
  | .waitEnd address mask value label :: events => .wait address mask value label :: blocks events
  | .waitBegin :: events => blocks events
  | .barrier :: events => blocks events
termination_by events => events.length
decreasing_by
  all_goals
    try have shorter := length_leading_le address events
    simp only [List.length_cons]
    omega

/-- An access, as opposed to what only delimits accesses. -/
def Event.isAccess : Event → Bool
  | waitBegin => false
  | barrier => false
  | _ => true

def Event.label? : Event → Option String
  | read _ _ label => some label
  | write _ _ _ _ label => some label
  | waitEnd _ _ _ label => some label
  | waitBegin => none
  | barrier => none

theorem filter_run (address : Word) (writes : List WordWrite) :
    (writes.map (WordWrite.event address)).filter Event.isAccess =
      writes.map (WordWrite.event address) := by
  have all : writes.filter (Event.isAccess ∘ WordWrite.event address) = writes :=
    List.filter_eq_self.mpr fun _ _ => rfl
  rw [List.filter_map, all]

/-- Blocks hold the accesses among the events, each once and in order. -/
theorem events_blocks (events : List Event) :
    (blocks events).flatMap Block.events = events.filter Event.isAccess := by
  fun_induction blocks events with
  | case1 => rfl
  | case2 address mask value label events ih =>
      have split := congrArg (List.filter Event.isAccess) (leading_append address events)
      rw [List.filter_append, filter_run, ← ih] at split
      exact congrArg (_ :: ·) split
  | case3 address width mask value label events narrow ih => exact congrArg (_ :: ·) ih
  | case4 address width label events ih => exact congrArg (_ :: ·) ih
  | case5 address mask value label events ih => exact congrArg (_ :: ·) ih
  | case6 events ih => exact ih
  | case7 events ih => exact ih

namespace Merge

/-- The merge stands for these writes to the address. -/
structure Holds (merge : Merge) (address : Word) (writes : List WordWrite) : Prop where
  address : merge.address = address
  mask : merge.mask = WordWrite.reached writes
  value : merge.value = WordWrite.latest writes
  labels : merge.label :: merge.further = writes.map WordWrite.label

theorem holds_start (address : Word) (write : WordWrite) :
    (start address write.mask write.value write.label).Holds address [write] where
  address := rfl
  mask := by
    have first := WordWrite.reached_append [] write
    rw [show WordWrite.reached [] = 0#32 from rfl, BitVec.zero_or] at first
    exact first.symm
  value := by
    have first := WordWrite.latest_append [] write
    rw [show WordWrite.latest [] = 0#32 from rfl, maskedWrite, BitVec.zero_and, BitVec.zero_or]
      at first
    exact first.symm
  labels := rfl

theorem Holds.add {merge : Merge} {address : Word} {writes : List WordWrite}
    (holds : merge.Holds address writes) (write : WordWrite) :
    (merge.add write.mask write.value write.label).Holds address (writes ++ [write]) where
  address := holds.address
  mask := by rw [WordWrite.reached_append, ← holds.mask]; rfl
  value := by rw [WordWrite.latest_append, ← holds.value]; rfl
  labels := by
    rw [List.map_append, ← holds.labels]
    rfl

end Merge

namespace Draft

variable {draft : Draft} {address : Word}

/-- The draft with the lines for one more block. -/
def place (draft : Draft) (block : Block) : Draft :=
  (if block.instruction.indirect then draft.bind block.address else draft)
    |>.emit block.instruction block.label
    |>.comment block.comments

theorem lines_place (draft : Draft) (block : Block) :
    (draft.place block).lines = draft.lines ++ block.lines draft.declared := by
  rw [place, Block.lines]
  split
  · simp [comment, emit, bind]
  · simp [comment, emit]

theorem declared_place (draft : Draft) (block : Block) :
    (draft.place block).declared = (draft.declared || block.instruction.indirect) := by
  rw [place]
  split
  case isTrue indirect => rw [indirect, Bool.or_true]; rfl
  case isFalse direct => rw [Bool.eq_false_iff.mpr direct, Bool.or_false]; rfl

theorem pending_place (draft : Draft) (block : Block) :
    (draft.place block).pending = draft.pending := by
  rw [place]
  split <;> rfl

theorem place_alone (draft : Draft) {block : Block} (alone : block.comments = []) :
    draft.place block =
      (if block.instruction.indirect then draft.bind block.address else draft).emit
        block.instruction block.label := by
  rw [place, alone, comment, List.map_nil, List.append_nil]

theorem flush_settled (settled : draft.pending = none) : draft.flush = draft := by
  rw [flush, settled]

/-- A merge is emitted as the statement that corresponds to the request for it. -/
theorem emitMerge_eq (draft : Draft) (merge : Merge) :
    draft.emitMerge merge =
      let statement := (Operation.write .word merge.mask merge.value).statement merge.address
      (if statement.indirect then draft.bind merge.address else draft).emit statement
        merge.label := by
  rw [emitMerge, Operation.write]
  cases chosen : Idiom.cheapest merge.mask merge.value with
  | overwrite => rfl
  | setBit position =>
      simp only [Operation.statement, Idiom.toNat_position_of_cheapest (.inl chosen)]
      rfl
  | clearBit position =>
      simp only [Operation.statement, Idiom.toNat_position_of_cheapest (.inr chosen)]
      rfl
  | setAll => rfl
  | clearAll => rfl
  | modify mask value => rfl

/-- What is let go of a run is its block. -/
theorem flush_run {merge : Merge} {first : WordWrite} {further : List WordWrite}
    (settled : draft.pending = none) (holds : merge.Holds address (first :: further)) :
    ({ draft with pending := some merge } : Draft).flush =
      draft.place (.run address first further) := by
  have emptied : ({ draft with pending := none } : Draft) = draft := by rw [← settled]
  obtain ⟨head, rest⟩ := List.cons.inj holds.labels
  simp only [flush]
  rw [emptied, emitMerge_eq, holds.address, holds.mask, holds.value, head, rest]
  rfl

/-- The later writes of a run are merged with the first. -/
theorem taken_run (draft : Draft) (further : List WordWrite) :
    ∀ {merge : Merge} {before : List WordWrite}, merge.Holds address before →
      ∃ whole : Merge, whole.Holds address (before ++ further) ∧
        (further.map (WordWrite.event address)).foldlM step
            ({ draft with pending := some merge } : Draft) =
          .ok { draft with pending := some whole } := by
  induction further with
  | nil =>
      intro merge before holds
      rw [List.append_nil]
      exact ⟨merge, holds, rfl⟩
  | cons write further ih =>
      intro merge before holds
      obtain ⟨whole, held, taken⟩ := ih (holds.add write)
      rw [List.append_assoc] at held
      refine ⟨whole, held, ?_⟩
      have stepped : ({ draft with pending := some merge } : Draft).step (write.event address) =
          .ok { draft with pending := some (merge.add write.mask write.value write.label) } := by
        simp only [WordWrite.event, step, hold, if_pos holds.address]
      rw [List.map_cons, List.foldlM_cons, stepped]
      exact taken

theorem flush_flush (draft : Draft) : draft.flush.flush = draft.flush :=
  flush_settled draft.pending_flush

theorem hold_flush {mask value : Word} {label : String}
    (other : ∀ merge, draft.pending = some merge → merge.address ≠ address) :
    draft.hold address mask value label = draft.flush.hold address mask value label := by
  have emptied := draft.pending_flush
  cases pending : draft.pending with
  | none => rw [flush_settled pending]
  | some merge =>
      rw [hold, hold, pending, emptied]
      exact if_neg (other merge pending)

/-- An event that does not go on with the run lets it go first of all. -/
theorem step_flush {event : Event}
    (other : ∀ merge write, draft.pending = some merge →
      event ≠ WordWrite.event merge.address write) :
    draft.step event = draft.flush.step event := by
  cases event with
  | read address width label => rw [step, step, flush_flush]
  | write address width mask value label =>
      cases width with
      | byte => exact congrArg (fun flushed => Except.ok (emit flushed _ _)) draft.flush_flush.symm
      | half => exact congrArg (fun flushed => Except.ok (emit flushed _ _)) draft.flush_flush.symm
      | word =>
          have apart : ∀ merge, draft.pending = some merge → merge.address ≠ address := by
            rintro merge pending rfl
            exact other merge ⟨mask, value, label⟩ pending rfl
          exact congrArg Except.ok (hold_flush apart)
  | waitBegin => rw [step, step, waiting_flush, flush_flush]
  | waitEnd address mask value label => rw [step, step, waiting_flush, flush_flush]
  | barrier => rw [step, step, flush_flush]

theorem finish_flush (draft : Draft) : draft.finish = draft.flush.finish := by
  rw [finish, finish, waiting_flush, flush_flush]

/-- What becomes of some events that do not go on with the run, when it has been let go. -/
theorem complete_flush {merge : Merge} (pending : draft.pending = some merge)
    (events : List Event)
    (other : ∀ write rest, events ≠ WordWrite.event merge.address write :: rest) :
    (events.foldlM step draft >>= finish) = (events.foldlM step draft.flush >>= finish) := by
  cases events with
  | nil => exact draft.finish_flush
  | cons event events =>
      rw [List.foldlM_cons, List.foldlM_cons, step_flush]
      rintro held write same rfl
      obtain rfl := Option.some.inj (pending.symm.trans same)
      exact other write events rfl

/-- A run is taken in as a whole and let go, and what comes behind it finds its block placed. -/
theorem complete_run (settled : draft.pending = none) (address : Word) (write : WordWrite)
    (events : List Event) :
    ((write.event address :: events).foldlM step draft >>= finish) =
      ((leading address events).2.foldlM step
        (draft.place (.run address write (leading address events).1)) >>= finish) := by
  have begun : draft.step (write.event address) = .ok { draft with
      pending := some (Merge.start address write.mask write.value write.label) } := by
    simp only [WordWrite.event, step, hold, settled]
  obtain ⟨whole, holds, taken⟩ :=
    taken_run draft (leading address events).1 (Merge.holds_start address write)
  have ran : (write.event address :: events).foldlM step draft =
      (leading address events).2.foldlM step { draft with pending := some whole } := by
    rw [List.foldlM_cons, begun]
    change events.foldlM step _ = _
    conv => lhs; rw [← leading_append address events]
    rw [List.foldlM_append, taken]
    rfl
  have other : ∀ write rest,
      (leading address events).2 ≠ WordWrite.event whole.address write :: rest := by
    rw [holds.address]
    exact leading_rest address events
  have gone : ({ draft with pending := some whole } : Draft).flush =
      draft.place (.run address write (leading address events).1) := flush_run settled holds
  rw [ran, complete_flush rfl _ other, gone]

/-- Taken in by a draft that holds nothing back, the events add the lines for the blocks. -/
def Lists (events : List Event) (blocks : List Block) : Prop :=
  ∀ (draft : Draft) (program : Program), draft.pending = none →
    (events.foldlM step draft >>= finish) = .ok program →
      program.lines = draft.lines ++ Block.listing draft.declared blocks

/-- A block that is placed comes first in the listing of what follows. -/
theorem Lists.placed {events : List Event} {blocks : List Block} (lists : Lists events blocks)
    (settled : draft.pending = none) {block : Block} {program : Program}
    (completed : (events.foldlM step (draft.place block) >>= finish) = .ok program) :
    program.lines = draft.lines ++ Block.listing draft.declared (block :: blocks) := by
  have emptied := (draft.pending_place block).trans settled
  rw [lists _ program emptied completed, lines_place, declared_place, List.append_assoc,
    Block.listing]

theorem lists_blocks (events : List Event) : Lists events (blocks events) := by
  fun_induction blocks events with
  | case1 =>
      intro draft program settled completed
      have closed : draft.finish = .ok program := completed
      rw [finish] at closed
      split at closed
      · cases closed
      · cases closed
        rw [flush_settled settled, Block.listing, List.append_nil]
  | case2 address mask value label events ih =>
      intro draft program settled completed
      exact ih.placed settled
        ((complete_run settled address ⟨mask, value, label⟩ events).symm.trans completed)
  | case3 address width mask value label events narrow ih =>
      intro draft program settled completed
      have placed : draft.step (.write address width mask value label) =
          .ok (draft.place (.store address width mask value label)) := by
        rw [place_alone draft rfl]
        conv => rhs; rw [← flush_settled settled]
        cases width with
        | word => exact (narrow rfl).elim
        | byte => rfl
        | half => rfl
      rw [List.foldlM_cons, placed] at completed
      exact ih.placed settled completed
  | case4 address width label events ih =>
      intro draft program settled completed
      have placed : draft.step (.read address width label) =
          .ok (draft.place (.load address width label)) := by
        rw [step, flush_settled settled, place_alone draft rfl]
        rfl
      rw [List.foldlM_cons, placed] at completed
      exact ih.placed settled completed
  | case5 address mask value label events ih =>
      intro draft program settled completed
      let closed : Draft := { draft with waiting := false }
      have placed : closed.place (.wait address mask value label) =
          (closed.bind address).emit (.poll mask (Mask.scatter value mask)) label := by
        rw [place_alone closed rfl]
        rfl
      rw [List.foldlM_cons, step, flush_settled settled] at completed
      -- a wait that was never opened has no program, so nothing is claimed of it
      split at completed
      · change (events.foldlM step ((closed.bind address).emit _ _) >>= finish) = _ at completed
        rw [← placed] at completed
        have emptied : closed.pending = none := settled
        exact ih.placed emptied completed
      · cases completed
  | case6 events ih =>
      intro draft program settled completed
      rw [List.foldlM_cons, step, flush_settled settled] at completed
      split at completed
      · cases completed
      · exact ih { draft with waiting := true } program settled completed
  | case7 events ih =>
      intro draft program settled completed
      rw [List.foldlM_cons, step, flush_settled settled] at completed
      exact ih draft program settled completed

end Draft

/-- The lines of a program are those for the blocks of its events. -/
theorem Program.lines_of_ofEvents {events : List Event} {program : Program}
    (compiled : ofEvents events = .ok program) :
    program.lines = Block.listing false (blocks events) :=
  Draft.lists_blocks events {} program rfl compiled

namespace Block

theorem labels_lines (declared : Bool) (block : Block) :
    (block.lines declared).filterMap Line.label = block.events.filterMap Event.label? := by
  have commented : (block.comments.map fun label => (⟨none, some label⟩ : Line)).filterMap
      Line.label = block.comments := by
    rw [List.filterMap_map]
    exact List.filterMap_some
  have placed : (block.lines declared).filterMap Line.label = block.label :: block.comments := by
    rw [lines, List.filterMap_append, List.filterMap_cons_some (show Line.label _ = _ from rfl),
      commented]
    split <;> rfl
  rw [placed]
  cases block with
  | run address first further =>
      rw [events, List.filterMap_map]
      change _ = (first :: further).filterMap (some ∘ WordWrite.label)
      rw [List.filterMap_eq_map]
      rfl
  | store address width mask value label => rfl
  | load address width label => rfl
  | wait address mask value label => rfl

theorem labels_listing (blocks : List Block) (declared : Bool) :
    (listing declared blocks).filterMap Line.label =
      (blocks.flatMap events).filterMap Event.label? := by
  induction blocks generalizing declared with
  | nil => rfl
  | cons block blocks ih =>
      rw [listing, List.filterMap_append, labels_lines, ih, List.flatMap_cons,
        List.filterMap_append]

end Block

theorem labels_accesses (events : List Event) :
    (events.filter Event.isAccess).filterMap Event.label? = events.filterMap Event.label? := by
  rw [List.filterMap_filter]
  congr 1
  funext event
  cases event <;> rfl

/--
Bracketed events have a program, with one statement for each of their blocks in
order.  No access is lost, doubled or moved, nor is the label of one.
-/
theorem Trace.compile_blocks {trace : Trace} (bracketed : WellBracketed trace.events) :
    trace.compile = .ok ⟨Block.listing false (blocks trace.events)⟩ ∧
    (blocks trace.events).flatMap Block.events = trace.events.filter Event.isAccess ∧
    (Block.listing false (blocks trace.events)).filterMap Line.label =
      trace.events.filterMap Event.label? := by
  obtain ⟨program, compiled⟩ := bracketed.drafted.compiles trace.waiting
  have listed := Program.lines_of_ofEvents compiled
  refine ⟨?_, events_blocks trace.events, ?_⟩
  · rw [← listed]
    exact compiled
  · rw [Block.labels_listing, events_blocks, labels_accesses]

/-- Runs cut by a barrier, by a wait and by other registers, one of them overlapping itself. -/
def mingled : Trace where
  events := [
    .write 0x40000000#32 .word 0xff#32 0x12#32 "byte",
    .write 0x40000000#32 .word 0xf0#32 0xa0#32 "nibble",
    .barrier,
    .write 0x40000000#32 .word 0x1#32 0x1#32 "bit",
    .waitBegin,
    .write 0x40000000#32 .word 0x6#32 0x0#32 "bits",
    .write 0x40000004#32 .word 0x3#32 0x0#32 "elsewhere",
    .read 0x40000004#32 .half "fetch",
    .write 0x40000008#32 .byte 0x0f#32 0x1a5#32 "narrow",
    .waitEnd 0x40000000#32 0x30#32 0x2#32 "ready"]

theorem Trace.compile_blocks_mingled :
    WellBracketed mingled.events ∧
    mingled.compile = .ok ⟨[
      ⟨some (.bind 0x40000000#32 true), none⟩,
      ⟨some (.modify 0xff#32 0xa2#32), some "byte"⟩,
      ⟨none, some "nibble"⟩,
      ⟨some (.setBit 0x40000000#32 0), some "bit"⟩,
      ⟨some (.clearMask 0x40000000#32 0x6#32), some "bits"⟩,
      ⟨some (.clearMask 0x40000004#32 0x3#32), some "elsewhere"⟩,
      ⟨some (.load 0x40000004#32 .half), some "fetch"⟩,
      ⟨some (.store 0x40000008#32 .byte 0xa5#32), some "narrow"⟩,
      ⟨some (.bind 0x40000000#32 false), none⟩,
      ⟨some (.poll 0x30#32 0x20#32), some "ready"⟩]⟩ := by
  have bracketed : WellBracketed mingled.events := ⟨1, rfl⟩
  refine ⟨bracketed, ?_⟩
  rw [(compile_blocks bracketed).1]
  apply congrArg fun lines => Except.ok (Program.mk lines)
  decide +kernel

end RegisterLink
