import RegisterLink.Proofs.StaleInput

/-!
# Chunks

A stream hands out its bytes in the order they have, each once, and the gates
between them decide when.  Where one chunk ends and the next begins decides only
how many reads that takes: what the loops of reads give, when, and what they
leave, can be told from the queue with every chunk cut into single bytes.
-/

namespace RegisterLink

namespace Stream

namespace Item

/-- The item is data or a gate: no end of the stream and no failed read. -/
def Flows : Item → Prop
  | data _ => True
  | gate _ => True
  | ending => False
  | failure _ => False

instance : (item : Item) → Decidable item.Flows
  | .data _ => isTrue trivial
  | .gate _ => isTrue trivial
  | .ending => isFalse id
  | .failure _ => isFalse id

def bytes : Item → List Byte
  | data bytes => bytes
  | _ => []

/-- The item with each of its bytes in a chunk of its own. -/
def cut : Item → List Item
  | data bytes => bytes.map fun byte => data [byte]
  | item => [item]

end Item

/-- The bytes of data in a queue, in order. -/
def contents (queue : List Item) : List Byte :=
  queue.flatMap Item.bytes

/-- The queue with every chunk cut into single bytes. -/
def pieces (queue : List Item) : List Item :=
  queue.flatMap Item.cut

/-- The bytes in front of the first gate that opens after a time. -/
def ready (deadline : Nat) (queue : List Item) : List Byte :=
  contents (queue.takeWhile (·.Arrived deadline))

/-- The time when the last of the gates in a queue has opened. -/
def latest : (clock : Nat) → List Item → Nat
  | clock, [] => clock
  | clock, .gate time :: queue => latest (max clock time) queue
  | clock, _ :: queue => latest clock queue

/-- A queue of single bytes, up to the last of so many of them. -/
def upTo : (size : Nat) → List Item → List Item
  | 0, _ => []
  | _, [] => []
  | size + 1, .data bytes :: queue => .data bytes :: upTo size queue
  | size, item :: queue => item :: upTo size queue

/-- The bytes, in chunks of their own, and the gates that a receive takes off a queue. -/
def passing (deadline size : Nat) (queue : List Item) : List Item :=
  upTo size (pieces (queue.takeWhile (·.Arrived deadline)))

/-- The stream with every chunk in its queue cut into single bytes. -/
def bytewise (stream : Stream) : Stream :=
  { stream with queue := pieces stream.queue }

section Pieces

variable {queue other : List Item}

theorem contents_append (queue other : List Item) :
    contents (queue ++ other) = contents queue ++ contents other :=
  List.flatMap_append

theorem pieces_cons (item : Item) (queue : List Item) :
    pieces (item :: queue) = item.cut ++ pieces queue :=
  List.flatMap_cons

theorem cut_split (size : Nat) (bytes : List Byte) :
    (Item.data bytes).cut =
      (Item.data (bytes.take size)).cut ++ (Item.data (bytes.drop size)).cut := by
  rw [Item.cut, Item.cut, Item.cut, ← List.map_append, List.take_append_drop]

theorem contents_cut (item : Item) : contents item.cut = item.bytes := by
  cases item with
  | data bytes =>
      induction bytes with
      | nil => rfl
      | cons byte bytes ih => exact congrArg (byte :: ·) ih
  | _ => rfl

theorem contents_pieces (queue : List Item) : contents (pieces queue) = contents queue := by
  induction queue with
  | nil => rfl
  | cons item queue ih =>
      rw [pieces_cons, contents_append, contents_cut]
      exact congrArg (item.bytes ++ ·) ih

theorem flows_pieces : (∀ item ∈ pieces queue, item.Flows) ↔ ∀ item ∈ queue, item.Flows := by
  have cut (item : Item) : (∀ piece ∈ item.cut, piece.Flows) ↔ item.Flows := by
    cases item with
    | data bytes => simp [Item.cut, Item.Flows]
    | _ => simp [Item.cut]
  simp only [pieces, List.mem_flatMap, forall_exists_index, and_imp]
  constructor
  · intro flows item member
    exact (cut item).mp fun piece cutting => flows piece item member cutting
  · intro flows piece item member cutting
    exact (cut item).mpr (flows item member) piece cutting

/-- The bytes of a chunk arrive together. -/
theorem arrived_cut (deadline : Nat) (item : Item) :
    (item.Arrived deadline → ∀ piece ∈ item.cut, piece.Arrived deadline) ∧
      (¬ item.Arrived deadline → item.cut = [item]) := by
  cases item with
  | data bytes =>
      constructor
      · intro _ piece cutting
        obtain ⟨byte, _, rfl⟩ := List.mem_map.mp cutting
        trivial
      · exact fun missing => absurd trivial missing
  | _ => simp [Item.cut]

theorem takeWhile_arrived {item : Item} {deadline : Nat} (arrived : item.Arrived deadline)
    (queue : List Item) :
    (item :: queue).takeWhile (·.Arrived deadline) =
      item :: queue.takeWhile (·.Arrived deadline) :=
  List.takeWhile_cons_of_pos (decide_eq_true arrived)

theorem takeWhile_held {item : Item} {deadline : Nat} (held : ¬ item.Arrived deadline)
    (queue : List Item) : (item :: queue).takeWhile (·.Arrived deadline) = [] :=
  List.takeWhile_cons_of_neg (by simpa using held)

theorem ready_data (deadline : Nat) (bytes : List Byte) (queue : List Item) :
    ready deadline (.data bytes :: queue) = bytes ++ ready deadline queue := by
  have arrived : (Item.data bytes).Arrived deadline := trivial
  rw [ready, takeWhile_arrived arrived]
  rfl

theorem ready_opened {time deadline : Nat} (opened : time ≤ deadline) (queue : List Item) :
    ready deadline (.gate time :: queue) = ready deadline queue := by
  have arrived : (Item.gate time).Arrived deadline := opened
  rw [ready, takeWhile_arrived arrived]
  rfl

theorem ready_held {time deadline : Nat} (held : ¬ time ≤ deadline) (queue : List Item) :
    ready deadline (.gate time :: queue) = [] := by
  have missing : ¬ (Item.gate time).Arrived deadline := held
  rw [ready, takeWhile_held missing]
  rfl

theorem takeWhile_pieces (deadline : Nat) (queue : List Item) :
    (pieces queue).takeWhile (·.Arrived deadline) =
      pieces (queue.takeWhile (·.Arrived deadline)) := by
  induction queue with
  | nil => rfl
  | cons item queue ih =>
      obtain ⟨together, alone⟩ := arrived_cut deadline item
      rw [pieces_cons]
      by_cases arrived : item.Arrived deadline
      · rw [List.takeWhile_append_of_pos fun piece cutting =>
          decide_eq_true (together arrived piece cutting), takeWhile_arrived arrived]
        exact congrArg (item.cut ++ ·) ih
      · rw [alone arrived, List.singleton_append, takeWhile_held arrived, takeWhile_held arrived]
        rfl

theorem pieces_split (deadline : Nat) (queue : List Item) :
    pieces queue =
      pieces (queue.takeWhile (·.Arrived deadline)) ++
        pieces (queue.dropWhile (·.Arrived deadline)) := by
  rw [pieces, pieces, pieces, ← List.flatMap_append, List.takeWhile_append_dropWhile]

/-- Queues of the same bytes and gates hold the same back. -/
theorem pieces_congr (same : pieces queue = pieces other) (deadline : Nat) :
    pieces (queue.takeWhile (·.Arrived deadline)) =
        pieces (other.takeWhile (·.Arrived deadline)) ∧
      pieces (queue.dropWhile (·.Arrived deadline)) =
        pieces (other.dropWhile (·.Arrived deadline)) := by
  have front : pieces (queue.takeWhile (·.Arrived deadline)) =
      pieces (other.takeWhile (·.Arrived deadline)) := by
    rw [← takeWhile_pieces, ← takeWhile_pieces, same]
  refine ⟨front, ?_⟩
  have split := pieces_split deadline other
  rw [← same, pieces_split deadline queue, front] at split
  exact List.append_cancel_left split

theorem ready_congr (same : pieces queue = pieces other) (deadline : Nat) :
    ready deadline queue = ready deadline other := by
  rw [ready, ready, ← contents_pieces, ← contents_pieces (other.takeWhile _),
    (pieces_congr same deadline).1]

end Pieces

section Passing

variable {clock deadline size : Nat} {queue : List Item} {bytes : List Byte}

theorem upTo_zero (queue : List Item) : upTo 0 queue = [] := by
  cases queue <;> rfl

/-- A chunk gives as many of the bytes as it has, and what is behind it gives the others. -/
theorem upTo_cut (size : Nat) (bytes : List Byte) (queue : List Item) :
    upTo size ((Item.data bytes).cut ++ queue) =
      (Item.data (bytes.take size)).cut ++ upTo (size - bytes.length) queue := by
  induction bytes generalizing size with
  | nil => rw [List.take_nil, List.length_nil, Nat.sub_zero]; rfl
  | cons byte bytes ih =>
      cases size with
      | zero => rw [upTo_zero, Nat.zero_sub, upTo_zero]; rfl
      | succ size =>
          rw [List.length_cons, Nat.succ_sub_succ]
          exact congrArg (Item.data [byte] :: ·) (ih size)

/-- What is not data is passed on the way to the bytes behind it. -/
theorem upTo_gap {item : Item} (single : item.cut = [item]) (empty : item.bytes = [])
    (positive : 0 < size) (queue : List Item) :
    upTo size (item :: queue) = item :: upTo size queue := by
  obtain ⟨more, rfl⟩ := Nat.exists_eq_succ_of_ne_zero (Nat.ne_of_gt positive)
  cases item with
  | data bytes =>
      rw [Item.bytes] at empty
      rw [empty] at single
      cases single
  | _ => rfl

theorem contents_upTo (size : Nat) (queue : List Item) :
    contents (upTo size (pieces queue)) = (contents queue).take size := by
  induction queue generalizing size with
  | nil => cases size <;> rfl
  | cons item queue ih =>
      cases item with
      | data bytes =>
          rw [pieces_cons, upTo_cut, contents_append, contents_cut, ih]
          exact List.take_append.symm
      | _ =>
          cases size with
          | zero => rfl
          | succ size => exact ih (size + 1)

/-- A queue that has the bytes is not passed beyond the last of them. -/
theorem upTo_last (enough : size ≤ (contents queue).length) {item : Item}
    (last : (upTo size (pieces queue)).getLast? = some item) : ∃ byte, item = .data [byte] := by
  induction queue generalizing size with
  | nil =>
      rw [Nat.le_zero.mp enough, upTo_zero] at last
      cases last
  | cons first queue ih =>
      rcases Nat.eq_zero_or_pos size with rfl | positive
      · rw [upTo_zero] at last
        cases last
      have alone (single : first.cut = [first]) (empty : first.bytes = []) :
          ∃ byte, item = .data [byte] := by
        have short : size ≤ (contents queue).length := by
          change size ≤ (first.bytes ++ contents queue).length at enough
          rwa [empty, List.nil_append] at enough
        have filled : upTo size (pieces queue) ≠ [] := by
          intro nothing
          have given := congrArg List.length (contents_upTo size queue)
          rw [nothing, List.length_take, Nat.min_eq_left short] at given
          exact absurd given (Nat.ne_of_lt positive)
        rw [pieces_cons, single, List.singleton_append, upTo_gap single empty positive,
          List.getLast?_cons_of_ne_nil filled] at last
        exact ih short last
      cases first with
      | data bytes =>
          rw [pieces_cons, upTo_cut, List.getLast?_append, Option.or_eq_some_iff] at last
          rcases last with later | ⟨_, within⟩
          · refine ih ?_ later
            change size ≤ (bytes ++ contents queue).length at enough
            rw [List.length_append] at enough
            omega
          · obtain ⟨byte, _, rfl⟩ := List.mem_map.mp (List.mem_of_getLast? within)
            exact ⟨byte, rfl⟩
      | _ => exact alone rfl rfl

theorem passing_congr {other : List Item} (same : pieces queue = pieces other)
    (deadline size : Nat) : passing deadline size queue = passing deadline size other := by
  rw [passing, passing, (pieces_congr same deadline).1]

theorem contents_passing (deadline size : Nat) (queue : List Item) :
    contents (passing deadline size queue) = (ready deadline queue).take size :=
  contents_upTo size _

theorem passing_data (deadline size : Nat) (bytes : List Byte) (queue : List Item) :
    passing deadline size (.data bytes :: queue) =
      (Item.data (bytes.take size)).cut ++ passing deadline (size - bytes.length) queue := by
  have arrived : (Item.data bytes).Arrived deadline := trivial
  rw [passing, takeWhile_arrived arrived, pieces_cons, upTo_cut]
  rfl

theorem passing_opened {time : Nat} (positive : 0 < size) (opened : time ≤ deadline)
    (queue : List Item) :
    passing deadline size (.gate time :: queue) =
      .gate time :: passing deadline size queue := by
  have arrived : (Item.gate time).Arrived deadline := opened
  rw [passing, takeWhile_arrived arrived]
  exact upTo_gap rfl rfl positive _

theorem latest_cut (clock : Nat) (bytes : List Byte) (queue : List Item) :
    latest clock ((Item.data bytes).cut ++ queue) = latest clock queue := by
  induction bytes with
  | nil => rfl
  | cons byte bytes ih => exact ih

/-- A receive goes on after a read that gave bytes, while bytes are missing. -/
theorem collect_step (positive : 0 < size) (deadline clock : Nat) (queue : List Item) :
    collect deadline size clock queue =
      match next size deadline clock queue with
      | (.bytes bytes, clock, queue) =>
          let (more, reached) := collect deadline (size - bytes.length) clock queue
          (more.map (bytes ++ ·), reached)
      | (.failure failure, reached) => (.error failure, reached)
      | (.ending, reached) => (.ok [], reached)
      | (.pending, reached) => (.ok [], reached) := by
  rw [collect, dif_pos positive]
  split <;> simp only [*]
  split <;> simp only [*] <;> rfl

theorem collect_zero (deadline clock : Nat) (queue : List Item) :
    collect deadline 0 clock queue = (.ok [], clock, queue) := by
  rw [collect, dif_neg (Nat.lt_irrefl 0)]

/-- A chunk that has all the bytes that are missing is read once. -/
theorem collect_enough (positive : 0 < size) (enough : size ≤ bytes.length)
    (deadline clock : Nat) (queue : List Item) :
    ∃ rest, collect deadline size clock (.data bytes :: queue) =
        (.ok (bytes.take size), clock, rest) ∧
      pieces rest = (Item.data (bytes.drop size)).cut ++ pieces queue := by
  have nonempty : bytes ≠ [] := List.ne_nil_of_length_pos (Nat.lt_of_lt_of_le positive enough)
  have full : size - (bytes.take size).length = 0 := by
    rw [List.length_take, Nat.min_eq_left enough, Nat.sub_self]
  rw [collect_step positive, next_data nonempty]
  simp only [full, collect_zero, Except.map, List.append_nil]
  refine ⟨_, rfl, ?_⟩
  split
  · rename_i used
    rw [List.isEmpty_iff.mp used]
    rfl
  · rfl

/-- A chunk with fewer bytes is used up, and the rest of the receive is one of its own. -/
theorem collect_more (few : bytes.length < size) (deadline clock : Nat) (queue : List Item) :
    collect deadline size clock (.data bytes :: queue) =
      let (more, reached) := collect deadline (size - bytes.length) clock queue
      (more.map (bytes ++ ·), reached) := by
  have positive : 0 < size := Nat.lt_of_le_of_lt (Nat.zero_le _) few
  by_cases empty : bytes = []
  · have skipped : collect deadline size clock (.data [] :: queue) =
        collect deadline size clock queue := by
      rw [collect_step positive, collect_step positive, next]
    rw [empty, skipped, List.length_nil, Nat.sub_zero]
    rcases collect deadline size clock queue with ⟨failure | more, reached⟩ <;> rfl
  · have whole : bytes.take size = bytes := List.take_of_length_le (Nat.le_of_lt few)
    have used : bytes.drop size = [] := List.drop_of_length_le (Nat.le_of_lt few)
    rw [collect_step positive, next_data empty, whole, used]
    rfl

/-- A gate that opens before the deadline is waited for. -/
theorem collect_gate {time : Nat} (positive : 0 < size) (opens : time ≤ deadline)
    (clock : Nat) (queue : List Item) :
    collect deadline size clock (.gate time :: queue) =
      collect deadline size (max clock time) queue := by
  have reached : time ≤ max clock deadline := Nat.le_trans opens (Nat.le_max_right clock deadline)
  rw [collect_step positive, collect_step positive, next, if_pos reached]

/--
A receive gives the bytes that are ready until its deadline, as many as it wants,
and takes them off the queue with the gates in front of them.  With too few it
waits out its time.
-/
theorem collect_passing (flows : ∀ item ∈ queue, item.Flows) (early : clock ≤ deadline)
    (size : Nat) :
    ∃ rest, collect deadline size clock queue =
        (.ok ((ready deadline queue).take size),
          if (ready deadline queue).length < size then deadline
          else latest clock (passing deadline size queue), rest) ∧
      pieces queue = passing deadline size queue ++ pieces rest := by
  induction queue generalizing clock size with
  | nil =>
      cases size with
      | zero => exact ⟨[], collect_zero deadline clock [], rfl⟩
      | succ size =>
          refine ⟨[], ?_, rfl⟩
          rw [collect_step (Nat.succ_pos size)]
          rfl
  | cons item queue ih =>
      have behind := fun other member => flows other (List.mem_cons_of_mem item member)
      -- with no bytes missing there is no read, and an open gate is left where it is
      rcases Nat.eq_zero_or_pos size with rfl | positive
      · rw [passing, upTo_zero]
        exact ⟨item :: queue, collect_zero deadline clock _, rfl⟩
      cases item with
      | data bytes =>
          rw [ready_data, passing_data, latest_cut, pieces_cons, List.length_append]
          rcases Nat.lt_or_ge bytes.length size with few | enough
          · obtain ⟨rest, collected, split⟩ := ih behind early (size - bytes.length)
            have whole : bytes.take size = bytes := List.take_of_length_le (Nat.le_of_lt few)
            refine ⟨rest, ?_, ?_⟩
            · rw [collect_more few, collected]
              simp only [Except.map, List.take_append, whole, Nat.lt_sub_iff_add_lt']
            · rw [split, whole, List.append_assoc]
          · obtain ⟨rest, collected, split⟩ := collect_enough positive enough deadline clock queue
            have filled : ¬ bytes.length + (ready deadline queue).length < size := by
              omega
            rw [Nat.sub_eq_zero_of_le enough, passing, upTo_zero, List.append_nil]
            refine ⟨rest, ?_, ?_⟩
            · rw [collected, List.take_append_of_le_length enough, if_neg filled]
              rfl
            · rw [split, cut_split size, List.append_assoc]
      | gate time =>
          by_cases opened : time ≤ deadline
          · obtain ⟨rest, collected, split⟩ := ih behind (Nat.max_le.mpr ⟨early, opened⟩) size
            rw [collect_gate positive opened, ready_opened opened, passing_opened positive opened]
            exact ⟨rest, collected, congrArg (Item.gate time :: ·) split⟩
          · have held : ¬ (Item.gate time).Arrived deadline := opened
            have shut : ¬ time ≤ max clock deadline := by rwa [Nat.max_eq_right early]
            refine ⟨.gate time :: queue, ?_, ?_⟩
            · rw [collect_step positive, next, if_neg shut, ready_held opened, List.take_nil,
                List.length_nil, if_pos positive]
            · rw [passing, takeWhile_held held]
              cases size <;> rfl
      | ending => exact (flows .ending List.mem_cons_self).elim
      | failure failure => exact (flows (.failure failure) List.mem_cons_self).elim

/-- A discard takes off what has arrived, and takes no time. -/
theorem drain_flowing (flows : ∀ item ∈ queue, item.Flows) :
    drain clock queue = (.ok (), clock, queue.dropWhile (·.Arrived clock)) := by
  have arrived : ∀ item ∈ queue.takeWhile (·.Arrived clock), item.Arrived clock :=
    fun item member => of_decide_eq_true (List.all_eq_true.mp List.all_takeWhile item member)
  have dropped := drain_arrived _ (queue.dropWhile (·.Arrived clock)) arrived
  rw [List.takeWhile_append_dropWhile] at dropped
  rw [dropped]
  cases left : queue.dropWhile (·.Arrived clock) with
  | nil =>
      rw [drain_step, next]
  | cons item rest =>
      have first := List.head?_dropWhile_not (fun item : Item => decide (item.Arrived clock)) queue
      rw [left] at first
      have held : ¬ item.Arrived clock := of_decide_eq_false first
      have member : item ∈ queue :=
        (List.dropWhile_suffix _).subset (left ▸ List.mem_cons_self)
      cases item with
      | data bytes => exact absurd trivial held
      | gate time =>
          have shut : ¬ time ≤ max clock clock := by rwa [Nat.max_self]
          rw [drain_step, next, if_neg shut]
      | ending => exact (flows .ending member).elim
      | failure failure => exact (flows (.failure failure) member).elim

end Passing

variable {stream other : Stream}

/-- What a receive gives and leaves, as far as chunks do not matter. -/
theorem receive_passing (flows : ∀ item ∈ stream.queue, item.Flows) (size timeout : Nat) :
    let deadline := stream.clock + timeout
    let arrived := ready deadline stream.queue
    let passed := passing deadline size stream.queue
    ∃ rest, Link.receive size timeout stream =
        (.ok (arrived.take size),
          { stream with
            clock := if arrived.length < size then deadline else latest stream.clock passed
            queue := rest }) ∧
      pieces stream.queue = passed ++ pieces rest := by
  intro deadline arrived passed
  obtain ⟨rest, collected, split⟩ :=
    collect_passing flows (Nat.le_add_right stream.clock timeout) size
  refine ⟨rest, ?_, split⟩
  change reading (fun clock => collect (clock + timeout) size clock) stream = _
  rw [reading, collected]

theorem discard_flowing (flows : ∀ item ∈ stream.queue, item.Flows) :
    Link.discard stream =
      (.ok (), { stream with queue := stream.queue.dropWhile (·.Arrived stream.clock) }) := by
  change reading drain stream = _
  rw [reading, drain_flowing flows]

/-- Streams that differ in chunks only have the same bytes, gates and clock. -/
theorem bytewise_same (alike : other.bytewise = stream.bytewise) :
    pieces other.queue = pieces stream.queue ∧ other.clock = stream.clock := by
  have queues : other.bytewise.queue = stream.bytewise.queue := congrArg queue alike
  have clocks : other.bytewise.clock = stream.bytewise.clock := congrArg clock alike
  exact ⟨queues, clocks⟩

/-- They still do after the same has happened to them. -/
theorem bytewise_reached (alike : other.bytewise = stream.bytewise) {rest left : List Item}
    (same : pieces left = pieces rest) (clock : Nat) :
    bytewise { other with clock, queue := left } =
      bytewise { stream with clock, queue := rest } := by
  have others : { other.bytewise with clock, queue := pieces rest } =
      { stream.bytewise with clock, queue := pieces rest } := by rw [alike]
  rw [bytewise, bytewise, same]
  exact others

theorem flows_alike (alike : other.bytewise = stream.bytewise)
    (flows : ∀ item ∈ stream.queue, item.Flows) : ∀ item ∈ other.queue, item.Flows := by
  rw [← flows_pieces, (bytewise_same alike).1, flows_pieces]
  exact flows

theorem receive_alike (alike : other.bytewise = stream.bytewise)
    (flows : ∀ item ∈ stream.queue, item.Flows) (size timeout : Nat) :
    (Link.receive size timeout other).1 = (Link.receive size timeout stream).1 ∧
      (Link.receive size timeout other).2.bytewise =
        (Link.receive size timeout stream).2.bytewise := by
  obtain ⟨same, together⟩ := bytewise_same alike
  obtain ⟨rest, received, split⟩ := receive_passing flows size timeout
  obtain ⟨left, reached, cut⟩ := receive_passing (flows_alike alike flows) size timeout
  rw [together, ready_congr same, passing_congr same] at reached
  rw [together, passing_congr same, same, split] at cut
  rw [received, reached]
  exact ⟨rfl, bytewise_reached alike (List.append_cancel_left cut).symm _⟩

theorem discard_alike (alike : other.bytewise = stream.bytewise)
    (flows : ∀ item ∈ stream.queue, item.Flows) :
    (Link.discard other).1 = (Link.discard stream).1 ∧
      (Link.discard other).2.bytewise = (Link.discard stream).2.bytewise := by
  obtain ⟨same, together⟩ := bytewise_same alike
  rw [discard_flowing flows, discard_flowing (flows_alike alike flows), together]
  have left := (pieces_congr same stream.clock).2
  have reached := bytewise_reached alike left stream.clock
  exact ⟨rfl, together ▸ reached⟩

/--
A receive gives the bytes in front of the first gate that stays shut until its
deadline, as many as it wants, and what it gives and what it leaves is the queue
as it was.  With too few bytes it takes its whole time; otherwise it waits for
the gates in front of its last byte and no longer.  A discard drops the bytes in
front of the first gate that is shut, at once.  Streams that differ only in how
their bytes are cut into chunks give the same results and differ in nothing else
afterwards.
-/
theorem chunks_immaterial (flows : ∀ item ∈ stream.queue, item.Flows) (size timeout : Nat) :
    let deadline := stream.clock + timeout
    let arrived := ready deadline stream.queue
    (∃ passed rest clock, Link.receive size timeout stream =
        (.ok (arrived.take size), { stream with clock, queue := rest }) ∧
      arrived.take size ++ contents rest = contents stream.queue ∧
      pieces stream.queue = passed ++ pieces rest ∧ contents passed = arrived.take size ∧
      (arrived.length < size → clock = deadline) ∧
      (size ≤ arrived.length → clock = latest stream.clock passed ∧
        ∀ item, passed.getLast? = some item → ∃ byte, item = .data [byte])) ∧
    (∃ rest, Link.discard stream = (.ok (), { stream with queue := rest }) ∧
      rest = stream.queue.dropWhile (·.Arrived stream.clock) ∧
      ready stream.clock stream.queue ++ contents rest = contents stream.queue) ∧
    ∀ other : Stream, other.bytewise = stream.bytewise →
      ((Link.receive size timeout other).1 = (Link.receive size timeout stream).1 ∧
        (Link.receive size timeout other).2.bytewise =
          (Link.receive size timeout stream).2.bytewise) ∧
      (Link.discard other).1 = (Link.discard stream).1 ∧
      (Link.discard other).2.bytewise = (Link.discard stream).2.bytewise := by
  intro deadline arrived
  obtain ⟨rest, received, split⟩ := receive_passing flows size timeout
  refine ⟨⟨_, rest, _, received, ?_, split, contents_passing _ _ _,
    fun few => if_pos few, ?_⟩, ?_,
    fun other alike => ⟨receive_alike alike flows size timeout, discard_alike alike flows⟩⟩
  · rw [← contents_passing, ← contents_pieces rest, ← contents_append, ← split, contents_pieces]
  · intro enough
    exact ⟨if_neg (Nat.not_lt_of_le enough), fun item last => upTo_last enough last⟩
  · refine ⟨_, discard_flowing flows, rfl, ?_⟩
    rw [ready, ← contents_append, List.takeWhile_append_dropWhile]

/-- A stream whose bytes come in chunks of all sizes, some of them later. -/
def trickling : Stream where
  queue := [
    .gate 3, .data [0x01#8, 0x02#8], .data [], .gate 7, .gate 4,
    .data (List.replicate 70 0x4f#8 ++ [0x4b#8]), .gate 9, .data [0x03#8], .gate 20, .data [0x04#8]]
  replies := [[.data [0x05#8]]]
  clock := 5

/-- The same bytes at the same times, in other chunks. -/
def recut : Stream where
  queue := [
    .data [], .gate 3, .data [0x01#8], .data [0x02#8], .gate 7, .gate 4,
    .data (List.replicate 40 0x4f#8), .data (List.replicate 30 0x4f#8), .data [0x4b#8], .gate 9,
    .data [0x03#8], .data [], .gate 20, .data [0x04#8]]
  replies := [[.data [0x05#8]]]
  clock := 5

theorem chunks_immaterial_trickling :
    (∀ item ∈ trickling.queue, item.Flows) ∧ recut.bytewise = trickling.bytewise ∧
      (Link.receive 5 3 trickling).1 = .ok [0x01#8, 0x02#8, 0x4f#8, 0x4f#8, 0x4f#8] ∧
      (Link.receive 5 3 trickling).2.clock = 7 ∧
      (Link.receive 5 3 recut).1 = (Link.receive 5 3 trickling).1 ∧
      (Link.receive 5 3 recut).2.bytewise = (Link.receive 5 3 trickling).2.bytewise ∧
      (Link.discard trickling).1 = .ok () ∧
      contents (Link.discard trickling).2.queue =
        List.replicate 70 0x4f#8 ++ [0x4b#8, 0x03#8, 0x04#8] ∧
      (Link.discard recut).2.bytewise = (Link.discard trickling).2.bytewise := by
  have flows : ∀ item ∈ trickling.queue, item.Flows := by decide
  have alike : recut.bytewise = trickling.bytewise := rfl
  obtain ⟨_, _, same⟩ := chunks_immaterial flows 5 3
  obtain ⟨⟨result, reached⟩, _, left⟩ := same recut alike
  refine ⟨flows, alike, ?_, ?_, result, reached, ?_, ?_, left⟩
  · decide +kernel
  · decide +kernel
  · decide +kernel
  · decide +kernel

end Stream

end RegisterLink
