import RegisterLink.Proofs.Access
import RegisterLink.Stream

/-!
# Stale input

A read over a stream begins by dropping whatever has come.  The reads of a
discard stop at the first item that holds the stream up, so what lies in front
of that item makes no difference to anything: not to the calls that follow, not
to their times, and not to what they leave in the queue.
-/

namespace RegisterLink

namespace Stream

/-- The item holds nothing up at this time: it is data, or a gate that has opened. -/
def Item.Arrived (clock : Nat) : Item → Prop
  | data _ => True
  | gate time => time ≤ clock
  | ending => False
  | failure _ => False

instance (clock : Nat) : (item : Item) → Decidable (item.Arrived clock)
  | .data _ => isTrue trivial
  | .gate time => inferInstanceAs (Decidable (time ≤ clock))
  | .ending => isFalse id
  | .failure _ => isFalse id

/-- The stream with more in front of its queue. -/
def precede (stale : List Item) (stream : Stream) : Stream :=
  { stream with queue := stale ++ stream.queue }

variable {clock : Nat}

theorem next_data {bytes : List Byte} (nonempty : bytes ≠ []) (limit deadline clock : Nat)
    (queue : List Item) :
    next limit deadline clock (.data bytes :: queue) =
      (.bytes (bytes.take limit), clock,
        if (bytes.drop limit).isEmpty then queue else .data (bytes.drop limit) :: queue) := by
  cases bytes with
  | nil => exact absurd rfl nonempty
  | cons byte bytes => rw [next]; exact nonempty

/-- A discard goes on after a read that gave bytes, and ends with any other. -/
theorem drain_step (clock : Nat) (queue : List Item) :
    drain clock queue =
      match next discardLimit clock clock queue with
      | (.bytes _, clock, queue) => drain clock queue
      | (.failure failure, reached) => (.error failure, reached)
      | (.ending, reached) => (.ok (), reached)
      | (.pending, reached) => (.ok (), reached) := by
  rw [drain]
  split <;> simp only [*]

/-- Each read of a discard takes a piece of the chunk in front, until nothing is left of it. -/
theorem drain_data (clock : Nat) (bytes : List Byte) (queue : List Item) :
    drain clock (.data bytes :: queue) = drain clock queue := by
  induction size : bytes.length using Nat.strongRecOn generalizing bytes with
  | ind size ih =>
      by_cases empty : bytes = []
      · rw [empty, drain_step, drain_step clock queue, next]
      · have positive := List.length_pos_iff.mpr empty
        rw [drain_step, next_data empty]
        simp only
        split
        · rfl
        · refine ih _ ?_ (bytes.drop discardLimit) rfl
          rw [← size, List.length_drop, discardLimit]
          omega

/-- An open gate is passed at once, and the clock stays. -/
theorem drain_gate {time : Nat} (opened : time ≤ clock) (queue : List Item) :
    drain clock (.gate time :: queue) = drain clock queue := by
  have reached : time ≤ max clock clock := Nat.le_trans opened (Nat.le_max_left clock clock)
  rw [drain_step, drain_step clock queue, next, if_pos reached, Nat.max_eq_left opened]

theorem drain_arrived (stale queue : List Item) (arrived : ∀ item ∈ stale, item.Arrived clock) :
    drain clock (stale ++ queue) = drain clock queue := by
  induction stale with
  | nil => rfl
  | cons item stale ih =>
      have rest := ih fun other member => arrived other (List.mem_cons_of_mem item member)
      have first := arrived item List.mem_cons_self
      rw [List.cons_append, ← rest]
      cases item with
      | data bytes => exact drain_data clock bytes _
      | gate time => exact drain_gate first _
      | ending => exact first.elim
      | failure failure => exact first.elim

variable {stream : Stream} {stale : List Item}

/-- A discard leaves the same stream, whatever it had to drop in front. -/
theorem discard_precede (arrived : ∀ item ∈ stale, item.Arrived stream.clock) :
    Link.discard (stream.precede stale) = Link.discard stream := by
  change reading drain (stream.precede stale) = reading drain stream
  simp only [reading, precede, drain_arrived stale stream.queue arrived]

end Stream

namespace Channel

/-- The channel with more in front of the queue of its stream. -/
def precede (stale : List Stream.Item) (channel : Channel Stream) : Channel Stream :=
  { channel with link := channel.link.precede stale }

variable {channel : Channel Stream} {stale : List Stream.Item}

theorem clear_precede (arrived : ∀ item ∈ stale, item.Arrived channel.link.clock) :
    clear (channel.precede stale) = clear channel := by
  simp only [clear, onLink, Action.within, Action.raise, precede,
    Stream.discard_precede arrived]

theorem load_precede (arrived : ∀ item ∈ stale, item.Arrived channel.link.clock) (address : Word)
    (width : Width) : load address width (channel.precede stale) = load address width channel := by
  rw [load, Action.bind_apply, Action.bind_apply, clear_precede arrived]

/-- Only the first attempt can meet the stale input, and it drops it. -/
theorem fetch_precede (arrived : ∀ item ∈ stale, item.Arrived channel.link.clock) (address : Word)
    (width : Width) (retries : Nat) :
    fetch address width retries (channel.precede stale) = fetch address width retries channel := by
  cases retries with
  | zero => exact load_precede arrived address width
  | succ retries =>
      rw [fetch, Action.bind_apply, Action.bind_apply, Action.outcome, Action.outcome,
        load_precede arrived]

end Channel

namespace Session

/--
Input that has come before a read makes no difference to it, however much there
is: the read gives the same result or error, and leaves the same session, with
the same bytes written, the same clock, count, entries and remaining queue.
-/
theorem readBits_precede {session : Session Stream} {stale : List Stream.Item}
    (arrived : ∀ item ∈ stale, item.Arrived session.link.clock) {address : Word}
    (aligned : Address.Aligned address) (width : Width) (mask : Word) (placement : Placement)
    (label : String) :
    readBits address width mask placement label (session.mapLink (·.precede stale)) =
      readBits address width mask placement label session := by
  let preceded : Session Stream := { session with channel := session.channel.precede stale }
  change readBits address width mask placement label preceded = _
  have same : Channel.fetch address width session.config.retries preceded.channel = _ :=
    Channel.fetch_precede arrived address width session.config.retries
  rcases called : Channel.fetch address width session.config.retries session.channel with
    ⟨error | word, reached⟩
  · rw [readBits_failed aligned called, readBits_failed aligned (same.trans called)]
  · rw [readBits_apply aligned called, readBits_apply aligned (same.trans called)]
    rfl

/-- A session that has to make a handshake before its request, and a second attempt after it. -/
def besieged : Session Stream where
  channel := {
    link := {
      queue := [.gate 9, .data [0x4f#8]]
      replies := [
        [.data [0x4b#8]],
        [.data [0x04#8, 0x00#8, 0x01#8], .gate 12, .data [0x02#8, 0x03#8, 0x04#8, 0x00#8, 0x00#8]],
        [.gate 13, .data [0x00#8], .data Handshake.acknowledgement],
        [.data (Envelope.frame (Width.word.toBytes 0x89abcdef#32))]]
      clock := 5 }
    timeout := 10
    budget := 20
    sent := 10 }
  config := { budget := 20, retries := 1 }
  trace := some {}

/-- Hundreds of bytes that look like answers and acknowledgements, in chunks of all sizes. -/
def leftovers : List Stream.Item := [
  .data (List.replicate 200 0x4f#8),
  .data [],
  .gate 5,
  .data (Envelope.frame (Width.word.toBytes 0#32)),
  .data (List.replicate 64 0x4b#8),
  .gate 2,
  .data Handshake.acknowledgement]

theorem readBits_precede_besieged :
    let reading := readBits 0x40012000#32 .word 0xff00ff00#32 .packed "ADC.SR.EOC"
    (reading besieged).1.toOption = some 0x89cd#32 ∧
      (reading besieged).2.events? = some [.read 0x40012000#32 .word "ADC.SR.EOC"] ∧
      (reading besieged).2.link.clock = 13 ∧ (reading besieged).2.link.queue = [] ∧
      reading (besieged.mapLink (·.precede leftovers)) = reading besieged := by
  refine ⟨?_, ?_, ?_, ?_, readBits_precede (by decide) (by decide) _ _ _ _⟩
  · decide +kernel
  · decide +kernel
  · decide +kernel
  · decide +kernel

end Session

end RegisterLink
