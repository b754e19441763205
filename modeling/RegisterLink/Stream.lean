import RegisterLink.Link

/-!
# Byte streams

A stream delivers queued data in order.  Gates hold the queue back until a time,
and the stream may end or fail for one read.  A single read gives bytes of the
front chunk only, so receiving and discarding are loops of reads; both work on
the queue that is left, and a read that has to be given up loses nothing.  What
is written goes out at once, and completing a write may release a prepared reply
into the queue.
-/

namespace RegisterLink

namespace Stream

/-- An item of the read queue. -/
inductive Item where
  | data (bytes : List Byte)
  /-- Nothing behind the gate can be read before this time. -/
  | gate (time : Nat)
  /-- One read gives no bytes. -/
  | ending
  /-- One read fails. -/
  | failure (failure : LinkFailure)

/-- What a single read gives. -/
inductive Read where
  | bytes (bytes : List Byte)
  | ending
  | failure (failure : LinkFailure)
  /-- Nothing came until the deadline. -/
  | pending

/--
One read of at most `limit` bytes that is given up at `deadline`: its result, the
time it took until, and the queue it leaves.
-/
def next (limit deadline : Nat) : (clock : Nat) → List Item → Read × Nat × List Item
  | _, [] => (.pending, deadline, [])
  | clock, .data [] :: queue => next limit deadline clock queue
  | clock, .data bytes :: queue =>
      let rest := bytes.drop limit
      (.bytes (bytes.take limit), clock, if rest.isEmpty then queue else .data rest :: queue)
  | clock, .gate time :: queue =>
      if time ≤ max clock deadline then next limit deadline (max clock time) queue
      else (.pending, deadline, .gate time :: queue)
  | clock, .ending :: queue => (.ending, clock, queue)
  | clock, .failure failure :: queue => (.failure failure, clock, queue)

/-- The bytes of data in a queue. -/
def weight : List Item → Nat
  | [] => 0
  | .data bytes :: queue => bytes.length + weight queue
  | _ :: queue => weight queue

/-- A read that gives bytes takes them off the queue, and gives at least one if it may. -/
theorem next_bytes {limit deadline clock clock' : Nat} {queue queue' : List Item}
    {bytes : List Byte}
    (read : next limit deadline clock queue = (.bytes bytes, clock', queue'))
    (positive : 0 < limit) :
    0 < bytes.length ∧ bytes.length ≤ limit ∧ weight queue' + bytes.length = weight queue := by
  fun_induction next limit deadline clock queue with
  | case1 => simp at read
  | case2 clock queue ih => simpa [weight] using ih read
  | case3 clock chunk queue nonempty rest =>
      simp only [Prod.mk.injEq, Read.bytes.injEq] at read
      obtain ⟨rfl, rfl, rfl⟩ := read
      have chunkPositive : 0 < chunk.length := List.length_pos_iff.mpr nonempty
      have dropped : rest.length = chunk.length - limit := List.length_drop
      have tail : weight (if rest.isEmpty then queue else .data rest :: queue) =
          rest.length + weight queue := by
        cases rest <;> simp [weight]
      simp only [tail, weight, List.length_take]
      omega
  | case4 clock time queue reached ih => simpa [weight] using ih read
  | case5 => simp at read
  | case6 => simp at read
  | case7 => simp at read

/-- Reads until `size` bytes have come, the stream ends, or the deadline passes. -/
def collect (deadline size clock : Nat) (queue : List Item) :
    Except LinkFailure (List Byte) × Nat × List Item :=
  if _ : 0 < size then
    match _ : next size deadline clock queue with
    | (.bytes bytes, clock, queue) =>
        match collect deadline (size - bytes.length) clock queue with
        | (.ok more, reached) => (.ok (bytes ++ more), reached)
        | (.error failure, reached) => (.error failure, reached)
    | (.failure failure, reached) => (.error failure, reached)
    | (.ending, reached) => (.ok [], reached)
    | (.pending, reached) => (.ok [], reached)
  else (.ok [], clock, queue)
termination_by size
decreasing_by
  have := next_bytes ‹_› ‹_›
  omega

/-- How much one read of a discard drops at most. -/
def discardLimit : Nat := 64

/-- Drops what can be read at once. -/
def drain (clock : Nat) (queue : List Item) : Except LinkFailure Unit × Nat × List Item :=
  match _ : next discardLimit clock clock queue with
  | (.bytes _, clock, queue) => drain clock queue
  | (.failure failure, reached) => (.error failure, reached)
  | (.ending, reached) => (.ok (), reached)
  | (.pending, reached) => (.ok (), reached)
termination_by weight queue
decreasing_by
  have := next_bytes ‹_› (by decide)
  omega

end Stream

structure Stream where
  queue : List Stream.Item := []
  /-- Replies not released yet. -/
  replies : List (List Stream.Item) := []
  /-- The most that one write takes. -/
  maxWrite : Nat := 1048576
  clock : Nat := 0
  /-- Everything written. -/
  written : List Byte := []

namespace Stream

/-- More for the read queue. -/
def enqueue (stream : Stream) (items : List Item) : Stream :=
  { stream with queue := stream.queue ++ items }

/-- One more reply, to be released by a later write. -/
def prepare (stream : Stream) (reply : List Item) : Stream :=
  { stream with replies := stream.replies ++ [reply] }

/-- Releases the next reply. -/
def flush (stream : Stream) : Stream :=
  match stream.replies with
  | [] => stream
  | reply :: replies => { stream.enqueue reply with replies }

/-- Runs a loop of reads on the clock and the queue of a stream. -/
def reading {α : Type}
    (loop : (clock : Nat) → List Item → Except LinkFailure α × Nat × List Item) :
    Action LinkFailure Stream α :=
  fun stream =>
    let (result, clock, queue) := loop stream.clock stream.queue
    (result, { stream with clock, queue })

instance : Link Stream where
  send data := fun stream =>
    if stream.maxWrite = 0 ∧ data ≠ [] then (.error .writeZero, stream)
    else (.ok (), { stream with written := stream.written ++ data }.flush)
  receive size timeout := reading fun clock => collect (clock + timeout) size clock
  discard := reading drain

instance : Clock Stream where
  now := clock
  advance time stream := { stream with clock := stream.clock + time }

end Stream

end RegisterLink
