import Mathlib.Algebra.GroupWithZero.Nat
import RegisterLink.Proofs.Conversation

/-!
# The budget

The count of a channel is what the log of its link shows: the bytes of the
frames handed over since the last synchronization point.  It stays below the
budget whatever the link does, because a handshake settles the count before
anything can fail, and a frame enters it only where there is room.
-/

namespace RegisterLink

/-- What matters to the count of sent bytes. -/
inductive Mark where
  /-- A handshake was attempted or an answer accepted. -/
  | point
  | frame (size : Nat)
  deriving DecidableEq

namespace Mark

def size : Mark → Nat
  | point => 0
  | frame size => size

/-- The bytes of the frames after the last synchronization point. -/
def outstanding (marks : List Mark) : Nat :=
  ((marks.reverse.takeWhile (· ≠ point)).map size).sum

theorem outstanding_point (marks : List Mark) : outstanding (marks ++ [point]) = 0 := by
  simp [outstanding]

theorem outstanding_frame (marks : List Mark) (size : Nat) :
    outstanding (marks ++ [frame size]) = outstanding marks + size := by
  simp [outstanding, Mark.size, Nat.add_comm]

end Mark

/-- A handshake shows by its marker; everything else that is sent is a frame. -/
def LinkCall.mark? : LinkCall → Option Mark
  | .send data _ => some (if data = Handshake.marker then .point else .frame data.length)
  | _ => none

namespace Channel

variable {σ : Type} [Link σ]

/-- What can be asked of a channel. -/
inductive Call where
  | send (content : List Byte)
  | receive (size : Nat)
  | resync
  | clear

/-- Makes a call, with the content that it receives, if it receives one. -/
def perform : Call → Action Error (Channel σ) (Option (List Byte))
  | .send content => do
      send content
      pure none
  | .receive size => some <$> receive size
  | .resync => do
      resync
      pure none
  | .clear => do
      clear
      pure none

/-- A call with its result and the calls that it made on the link. -/
structure Turn where
  call : Call
  result : Except Error (Option (List Byte))
  made : List LinkCall

/-- An accepted answer is a synchronization point after the calls that brought it. -/
def Turn.marks (turn : Turn) : List Mark :=
  turn.made.filterMap LinkCall.mark? ++
    match turn.call, turn.result with
    | .receive _, .ok _ => [.point]
    | _, _ => []

/-- One call, with what the log of the link gained by it. -/
def turn (channel : Channel (Logged σ)) (call : Call) : Turn × Channel (Logged σ) :=
  let (result, reached) := perform call channel
  (⟨call, result, reached.link.log.drop channel.link.log.length⟩, reached)

/-- The turns of some calls, in order, and the channel after them. -/
def performAll (channel : Channel (Logged σ)) : List Call → List Turn × Channel (Logged σ)
  | [] => ([], channel)
  | call :: calls =>
      let (first, channel) := channel.turn call
      let (turns, channel) := channel.performAll calls
      (first :: turns, channel)

/-- A count is what the marks show, and leaves room for a handshake. -/
structure Accounts (budget : Nat) (marks : List Mark) (sent : Nat) : Prop where
  outstanding : sent = Mark.outstanding marks
  within : sent = 0 ∨ sent < budget

section Marks

variable {budget timeout sent : Nat} {shown : List Mark} {made : List LinkCall}

theorem accounts_point (budget : Nat) (shown : List Mark) :
    Accounts budget (shown ++ [.point]) 0 :=
  ⟨(Mark.outstanding_point shown).symm, .inl rfl⟩

theorem Accounts.frame (accounts : Accounts budget shown sent) {size : Nat}
    (room : sent + size < budget) : Accounts budget (shown ++ [.frame size]) (sent + size) where
  outstanding := by rw [Mark.outstanding_frame, accounts.outstanding]
  within := .inr room

/-- No frame is as short as the marker. -/
theorem frame_ne_marker (content : List Byte) : Envelope.frame content ≠ Handshake.marker := by
  intro same
  have length := congrArg List.length same
  rw [Envelope.length_frame, Envelope.overhead, Handshake.marker] at length
  simp at length

theorem mark?_frame (content : List Byte) (outcome : Except LinkFailure Unit) :
    (LinkCall.send (Envelope.frame content) outcome).mark? =
      some (.frame (Envelope.frame content).length) := by
  rw [LinkCall.mark?, if_neg (frame_ne_marker content)]

theorem Handshakes.marks {outcome : Except LinkFailure (List Byte)}
    (handshake : Handshakes timeout made outcome) :
    made.filterMap LinkCall.mark? = [.point] := by
  cases handshake <;> rfl

theorem Sends.accounts {content : List Byte} {result : Except Error Unit} {after : Nat}
    (sends : Sends budget timeout sent content made result after)
    (accounts : Accounts budget shown sent) :
    Accounts budget (shown ++ made.filterMap LinkCall.mark?) after := by
  have large : ¬ Refused budget content → (Envelope.frame content).length < budget :=
    fun fits => Nat.lt_of_not_le fun large => fits (.inr large)
  cases sends with
  | refused refused => rwa [List.filterMap_nil, List.append_nil]
  | posted fits room outcome =>
      simp only [List.filterMap_cons, mark?_frame, List.filterMap_nil]
      exact accounts.frame (Nat.lt_of_not_le room)
  | stopped fits spent handshake =>
      rw [handshake.marks]
      exact accounts_point budget shown
  | realigned fits spent handshake outcome =>
      have room : 0 + (Envelope.frame content).length < budget := by
        rw [Nat.zero_add]
        exact large fits
      have counted := (accounts_point budget shown).frame room
      rw [Nat.zero_add, List.append_assoc] at counted
      simp only [List.filterMap_append, handshake.marks, List.filterMap_cons, mark?_frame,
        List.filterMap_nil]
      exact counted

/-- A receive hands nothing to the link. -/
theorem Receives.marks {size : Nat} {result : Except Error (List Byte)} {after : Nat}
    (receives : Receives size timeout sent made result after) :
    made.filterMap LinkCall.mark? = [] := by
  cases receives <;> rfl

/-- A receive settles the count when it succeeds and leaves it alone when it fails. -/
theorem Receives.after {size : Nat} {result : Except Error (List Byte)} {after : Nat}
    (receives : Receives size timeout sent made result after) :
    after = match result with
      | .ok _ => 0
      | .error _ => sent := by
  cases receives <;> rfl

end Marks

/-- How a send keeps to a budget of which so much was sent before it. -/
structure Thrifty (budget timeout sent : Nat) (content : List Byte) (made : List LinkCall)
    (result : Except Error Unit) : Prop where
  /-- No other error looks like a refusal. -/
  oversized : (∃ size, result = .error (.oversized size)) ↔ Refused budget content
  /-- A refusal tells the size of the frame that there would have been, and makes no call. -/
  refused : Refused budget content →
    result = .error (.oversized (Envelope.frame content).length) ∧ made = []
  /-- The marker goes out first exactly where the frame would exhaust the budget. -/
  marked : (∃ outcome rest, made = .send Handshake.marker outcome :: rest) ↔
    ¬ Refused budget content ∧ Spent budget sent content
  posted : ¬ Refused budget content → ¬ Spent budget sent content →
    ∃ outcome, made = [.send (Envelope.frame content) outcome] ∧
      result = outcome.mapError Error.link
  /-- Only a failure of the link keeps the frame back; any answer lets it go out. -/
  realigned : ¬ Refused budget content → Spent budget sent content →
    (∃ failure, Handshakes timeout made (.error failure) ∧ result = .error (.link failure)) ∨
    ∃ attempt answer outcome, Handshakes timeout attempt (.ok answer) ∧
      made = attempt ++ [.send (Envelope.frame content) outcome] ∧
      result = outcome.mapError Error.link

/-- A failure of the link is no refusal. -/
theorem mapError_ne_oversized (size : Nat) (outcome : Except LinkFailure Unit) :
    outcome.mapError Error.link ≠ .error (.oversized size) := by
  intro same
  cases outcome with
  | ok => cases same
  | error => cases same

theorem Handshakes.begins {timeout : Nat} {made : List LinkCall}
    {outcome : Except LinkFailure (List Byte)} (handshake : Handshakes timeout made outcome) :
    ∃ sent rest, made = .send Handshake.marker sent :: rest := by
  cases handshake <;> exact ⟨_, _, rfl⟩

theorem Sends.thrifty {budget timeout sent : Nat} {content : List Byte} {made : List LinkCall}
    {result : Except Error Unit} {after : Nat}
    (sends : Sends budget timeout sent content made result after) :
    Thrifty budget timeout sent content made result := by
  cases sends with
  | refused refused =>
      refine ⟨⟨fun _ => refused, fun _ => ⟨_, rfl⟩⟩, fun _ => ⟨rfl, rfl⟩, ⟨?_, ?_⟩,
        fun fits => absurd refused fits, fun fits => absurd refused fits⟩
      · rintro ⟨outcome, rest, made⟩
        cases made
      · rintro ⟨fits, _⟩
        exact absurd refused fits
  | posted fits room outcome =>
      refine ⟨⟨?_, fun refused => absurd refused fits⟩, fun refused => absurd refused fits,
        ⟨?_, ?_⟩, fun _ _ => ⟨outcome, rfl, rfl⟩, fun _ spent => absurd spent room⟩
      · rintro ⟨size, failed⟩
        exact absurd failed (mapError_ne_oversized size outcome)
      · rintro ⟨sent, rest, made⟩
        injection made with first
        injection first with same
        exact absurd same (frame_ne_marker content)
      · rintro ⟨_, spent⟩
        exact absurd spent room
  | stopped fits spent handshake =>
      refine ⟨⟨?_, fun refused => absurd refused fits⟩, fun refused => absurd refused fits,
        ⟨fun _ => ⟨fits, spent⟩, fun _ => handshake.begins⟩, fun _ room => absurd spent room,
        fun _ _ => .inl ⟨_, handshake, rfl⟩⟩
      rintro ⟨size, failed⟩
      cases failed
  | realigned fits spent handshake outcome =>
      refine ⟨⟨?_, fun refused => absurd refused fits⟩, fun refused => absurd refused fits,
        ⟨fun _ => ⟨fits, spent⟩, fun _ => ?_⟩, fun _ room => absurd spent room,
        fun _ _ => .inr ⟨_, _, outcome, handshake, rfl, rfl⟩⟩
      · rintro ⟨size, failed⟩
        exact absurd failed (mapError_ne_oversized size outcome)
      · obtain ⟨sent, rest, rfl⟩ := handshake.begins
        exact ⟨sent, rest ++ _, rfl⟩

section Runs

variable {channel reached : Channel (Logged σ)} {shown : List Mark} {made : List LinkCall}

theorem turn_of_goes {call : Call} {result : Except Error (Option (List Byte))}
    (goes : Goes (perform call) channel made result reached) :
    channel.turn call = (⟨call, result, made⟩, reached) := by
  simp only [turn, goes.run, goes.drop_log]

/-- Every turn keeps the count at what the marks show. -/
theorem turn_accounts (accounts : Accounts channel.budget shown channel.sent) (call : Call) :
    ∃ turn reached, channel.turn call = (turn, reached) ∧
      reached.budget = channel.budget ∧ reached.timeout = channel.timeout ∧
      Accounts channel.budget (shown ++ turn.marks) reached.sent := by
  cases call with
  | send content =>
      obtain ⟨made, result, reached, sends, goes⟩ := goes_send channel content
      refine ⟨_, reached, turn_of_goes (goes.map fun _ => none), goes.budget, goes.timeout, ?_⟩
      rw [Turn.marks, List.append_nil]
      exact sends.accounts accounts
  | receive size =>
      obtain ⟨made, result, reached, receives, goes⟩ := goes_receive channel size
      refine ⟨_, reached, turn_of_goes (goes.map some), goes.budget, goes.timeout, ?_⟩
      rw [Turn.marks, receives.marks, receives.after, List.nil_append]
      cases result with
      | ok content => exact accounts_point channel.budget shown
      | error error =>
          rw [Except.map, List.append_nil]
          exact accounts
  | resync =>
      obtain ⟨made, outcome, reached, handshake, goes, settled⟩ := goes_resync channel
      refine ⟨_, reached, turn_of_goes (goes.map fun _ => none), goes.budget, goes.timeout, ?_⟩
      rw [Turn.marks, List.append_nil, handshake.marks, settled]
      exact accounts_point channel.budget shown
  | clear =>
      obtain ⟨outcome, reached, goes, still⟩ := goes_clear channel
      refine ⟨_, reached, turn_of_goes (goes.map fun _ => none), goes.budget, goes.timeout, ?_⟩
      rw [Turn.marks, List.append_nil, still]
      change Accounts channel.budget (shown ++ []) channel.sent
      rw [List.append_nil]
      exact accounts

theorem performAll_accounts (calls : List Call) :
    ∀ {channel : Channel (Logged σ)} {shown : List Mark},
      Accounts channel.budget shown channel.sent →
        ∃ turns reached, channel.performAll calls = (turns, reached) ∧
          reached.budget = channel.budget ∧ reached.timeout = channel.timeout ∧
          Accounts channel.budget (shown ++ turns.flatMap Turn.marks) reached.sent := by
  induction calls with
  | nil =>
      intro channel shown accounts
      refine ⟨[], channel, rfl, rfl, rfl, ?_⟩
      rw [List.flatMap_nil, List.append_nil]
      exact accounts
  | cons call calls ih =>
      intro channel shown accounts
      obtain ⟨turn, next, taken, budget, timeout, accounted⟩ := turn_accounts accounts call
      rw [← budget] at accounted
      obtain ⟨turns, reached, performed, budget', timeout', done⟩ := ih accounted
      refine ⟨turn :: turns, reached, ?_, budget'.trans budget, timeout'.trans timeout, ?_⟩
      · simp only [performAll, taken, performed]
      · rw [List.flatMap_cons, ← List.append_assoc, ← budget]
        exact done

/-- A count within the budget leaves a bound on what the next frame makes of it. -/
theorem Accounts.bounded {budget sent : Nat} (accounts : Accounts budget shown sent)
    {content : List Byte} (small : content.length ≤ Envelope.maxContent) :
    sent + (Envelope.frame content).length ≤ budget + 65539 := by
  have within := accounts.within
  rw [Envelope.length_frame, Envelope.overhead]
  rw [Envelope.maxContent] at small
  omega

/--
Whatever the link does and whatever was asked of a channel, its count is the
length of the frames handed to the link since the last synchronization point,
and is zero or within the budget.  So a sum that it enters never outgrows the
budget by more than a frame, and the next send makes a handshake exactly where
its frame would exhaust the budget, and refuses exactly what never fits.
-/
theorem sent_accounted (link : σ) (config : Config) (calls : List Call) :
    let (turns, channel) := (start { link } config : Channel (Logged σ)).performAll calls
    channel.sent = Mark.outstanding (turns.flatMap Turn.marks) ∧
      (channel.sent = 0 ∨ channel.sent < config.budget) ∧
      ∀ content,
        let (result, reached) := send content channel
        Thrifty config.budget config.timeout channel.sent content
            (reached.link.log.drop channel.link.log.length) result ∧
          (Refused config.budget content → reached = channel) ∧
          (content.length ≤ Envelope.maxContent →
            channel.sent + (Envelope.frame content).length ≤ config.budget + 65539) := by
  let opened : Channel (Logged σ) := start { link } config
  have fresh : Accounts opened.budget [] opened.sent := ⟨rfl, .inl rfl⟩
  obtain ⟨turns, channel, performed, budget, timeout, accounts⟩ := performAll_accounts calls fresh
  simp only [opened] at performed
  simp only [performed]
  refine ⟨accounts.outstanding, accounts.within, fun content => ?_⟩
  obtain ⟨made, result, reached, sends, goes⟩ := goes_send channel content
  rw [budget, timeout] at sends
  simp only [goes.run, goes.drop_log]
  refine ⟨sends.thrifty, fun refused => ?_, accounts.bounded⟩
  have stayed := send_refused (budget.symm ▸ refused : Refused channel.budget content)
  rw [goes.run] at stayed
  exact congrArg Prod.snd stayed

end Runs

end Channel

end RegisterLink
