import RegisterLink.Channel
import RegisterLink.Link

/-!
# Conversations

Nothing is promised about what a link answers, so what a channel does is said by
the calls that it makes.  Each exchange has a grammar: which calls may follow
each other, each with whatever came of it, and to which result and which count
of sent bytes they lead.  On a logged link every exchange goes by its grammar,
and the log grows by the calls of the grammar and nothing else.
-/

namespace RegisterLink

namespace Channel

variable {σ α β : Type}

section Grammar

/-- The calls of a handshake, with the answer that was heard or the failure that stopped it. -/
inductive Handshakes (timeout : Nat) : List LinkCall → Except LinkFailure (List Byte) → Prop
  | unsent (failure : LinkFailure) :
      Handshakes timeout [.send Handshake.marker (.error failure)] (.error failure)
  | unheard (failure : LinkFailure) :
      Handshakes timeout
        [.send Handshake.marker (.ok ()),
          .receive Handshake.acknowledgement.length timeout (.error failure)]
        (.error failure)
  | heard (answer : List Byte) :
      Handshakes timeout
        [.send Handshake.marker (.ok ()),
          .receive Handshake.acknowledgement.length timeout (.ok answer)]
        (.ok answer)

/-- What a handshake means by itself. -/
def acknowledged : Except LinkFailure (List Byte) → Except Error Unit
  | .error failure => .error (.link failure)
  | .ok answer =>
      if answer = Handshake.acknowledgement then .ok () else .error .unacknowledged

/-- What a handshake means on the way to something else. -/
def tolerated : Except LinkFailure (List Byte) → Except Error Unit
  | .error failure => .error (.link failure)
  | .ok _ => .ok ()

/-- No frame goes out for this content. -/
def Refused (budget : Nat) (content : List Byte) : Prop :=
  Envelope.maxContent < content.length ∨ budget ≤ (Envelope.frame content).length

/-- One more frame would exhaust the budget. -/
def Spent (budget sent : Nat) (content : List Byte) : Prop :=
  budget ≤ sent + (Envelope.frame content).length

/-- The calls that send a content, with the result and the count that they lead to. -/
inductive Sends (budget timeout sent : Nat) (content : List Byte) :
    List LinkCall → Except Error Unit → Nat → Prop
  | refused (refused : Refused budget content) :
      Sends budget timeout sent content [] (.error (.oversized (Envelope.frame content).length))
        sent
  | posted (fits : ¬ Refused budget content) (room : ¬ Spent budget sent content)
      (outcome : Except LinkFailure Unit) :
      Sends budget timeout sent content [.send (Envelope.frame content) outcome]
        (outcome.mapError Error.link) (sent + (Envelope.frame content).length)
  | stopped (fits : ¬ Refused budget content) (spent : Spent budget sent content)
      {attempt : List LinkCall} {failure : LinkFailure}
      (handshake : Handshakes timeout attempt (.error failure)) :
      Sends budget timeout sent content attempt (.error (.link failure)) 0
  | realigned (fits : ¬ Refused budget content) (spent : Spent budget sent content)
      {attempt : List LinkCall} {answer : List Byte}
      (handshake : Handshakes timeout attempt (.ok answer)) (outcome : Except LinkFailure Unit) :
      Sends budget timeout sent content (attempt ++ [.send (Envelope.frame content) outcome])
        (outcome.mapError Error.link) (Envelope.frame content).length

/-- What becomes of a framing error while the rest of the frame is dropped. -/
def dropped (expected received : Nat) : Except LinkFailure Unit → Error
  | .ok _ => .framing expected received
  | .error failure => .link failure

/-- The calls that receive an answer of a size. -/
inductive Receives (size timeout sent : Nat) :
    List LinkCall → Except Error (List Byte) → Nat → Prop
  | failed (failure : LinkFailure) :
      Receives size timeout sent
        [.receive (size + Envelope.overhead) timeout (.error failure)]
        (.error (.link failure)) sent
  | accepted {frame content : List Byte} (opened : Envelope.contents size frame = .ok content) :
      Receives size timeout sent
        [.receive (size + Envelope.overhead) timeout (.ok frame)] (.ok content) 0
  | rejected {frame : List Byte} {error : Error}
      (closed : Envelope.contents size frame = .error error)
      (whole : ∀ expected received, error ≠ .framing expected received) :
      Receives size timeout sent
        [.receive (size + Envelope.overhead) timeout (.ok frame)] (.error error) sent
  | cut {frame : List Byte} {expected received : Nat}
      (closed : Envelope.contents size frame = .error (.framing expected received))
      (outcome : Except LinkFailure Unit) :
      Receives size timeout sent
        [.receive (size + Envelope.overhead) timeout (.ok frame), .discard outcome]
        (.error (dropped expected received outcome)) sent

/-- The calls of one exchange that reads a value. -/
inductive Loads (budget timeout sent : Nat) (address : Word) (width : Width) :
    List LinkCall → Except Error Word → Nat → Prop
  | uncleared (failure : LinkFailure) :
      Loads budget timeout sent address width [.discard (.error failure)]
        (.error (.link failure)) sent
  | unsent {asked : List LinkCall} {error : Error} {after : Nat}
      (sending : Sends budget timeout sent (Request.read address width).encode asked
        (.error error) after) :
      Loads budget timeout sent address width (.discard (.ok ()) :: asked) (.error error) after
  | asked {asked heard : List LinkCall} {result : Except Error (List Byte)} {between after : Nat}
      (sending : Sends budget timeout sent (Request.read address width).encode asked (.ok ())
        between)
      (receiving : Receives width.bytes timeout between heard result after) :
      Loads budget timeout sent address width (.discard (.ok ()) :: (asked ++ heard))
        (result.map width.ofBytes) after

/-- The calls of a read that may be tried again. -/
inductive Fetches (budget timeout : Nat) (address : Word) (width : Width) :
    (retries sent : Nat) → List LinkCall → Except Error Word → Nat → Prop
  | last {sent after : Nat} {made : List LinkCall} {result : Except Error Word}
      (loading : Loads budget timeout sent address width made result after) :
      Fetches budget timeout address width 0 sent made result after
  | answered {retries sent after : Nat} {made : List LinkCall} {word : Word}
      (loading : Loads budget timeout sent address width made (.ok word) after) :
      Fetches budget timeout address width (retries + 1) sent made (.ok word) after
  | stopped {retries sent after : Nat} {made : List LinkCall} {failure : LinkFailure}
      (loading : Loads budget timeout sent address width made (.error (.link failure)) after) :
      Fetches budget timeout address width (retries + 1) sent made (.error (.link failure)) after
  | unrealigned {retries sent between : Nat} {made attempt : List LinkCall} {error : Error}
      {failure : LinkFailure}
      (loading : Loads budget timeout sent address width made (.error error) between)
      (passing : ∀ failure, error ≠ .link failure)
      (handshake : Handshakes timeout attempt (.error failure)) :
      Fetches budget timeout address width (retries + 1) sent (made ++ attempt)
        (.error (.link failure)) 0
  | again {retries sent between after : Nat} {made attempt more : List LinkCall} {error : Error}
      {answer : List Byte} {result : Except Error Word}
      (loading : Loads budget timeout sent address width made (.error error) between)
      (passing : ∀ failure, error ≠ .link failure)
      (handshake : Handshakes timeout attempt (.ok answer))
      (rest : Fetches budget timeout address width retries 0 more result after) :
      Fetches budget timeout address width (retries + 1) sent (made ++ (attempt ++ more)) result
        after

end Grammar

/-- How an action goes: the calls that it makes, its result, and the channel that it reaches. -/
structure Goes (action : Action Error (Channel (Logged σ)) α) (channel : Channel (Logged σ))
    (made : List LinkCall) (result : Except Error α) (reached : Channel (Logged σ)) : Prop where
  run : action channel = (result, reached)
  log : reached.link.log = channel.link.log ++ made
  timeout : reached.timeout = channel.timeout
  budget : reached.budget = channel.budget

section Steps

variable {action : Action Error (Channel (Logged σ)) α}
  {rest : α → Action Error (Channel (Logged σ)) β} {channel between reached : Channel (Logged σ)}
  {made more : List LinkCall}

/-- The calls that an action made are what its log has more than before. -/
theorem Goes.drop_log {result : Except Error α} (goes : Goes action channel made result reached) :
    reached.link.log.drop channel.link.log.length = made := by
  rw [goes.log, List.drop_left]

theorem goes_pure (value : α) (channel : Channel (Logged σ)) :
    Goes (pure value) channel [] (.ok value) channel :=
  ⟨rfl, (List.append_nil _).symm, rfl, rfl⟩

theorem goes_throw (error : Error) (channel : Channel (Logged σ)) :
    Goes (throw error : Action Error (Channel (Logged σ)) α) channel [] (.error error) channel :=
  ⟨rfl, (List.append_nil _).symm, rfl, rfl⟩

theorem Goes.bind {value : α} {result : Except Error β}
    (first : Goes action channel made (.ok value) between)
    (second : Goes (rest value) between more result reached) :
    Goes (action >>= rest) channel (made ++ more) result reached where
  run := by rw [Action.bind_apply, first.run]; exact second.run
  log := by rw [second.log, first.log, List.append_assoc]
  timeout := second.timeout.trans first.timeout
  budget := second.budget.trans first.budget

theorem Goes.bind_error {error : Error} (first : Goes action channel made (.error error) reached) :
    Goes (action >>= rest) channel made (.error error) reached where
  run := by rw [Action.bind_apply, first.run]
  log := first.log
  timeout := first.timeout
  budget := first.budget

/-- A function of the value makes no call. -/
theorem Goes.map {result : Except Error α} (goes : Goes action channel made result reached)
    (change : α → β) :
    Goes (action >>= fun value => pure (change value)) channel made (result.map change)
      reached := by
  cases result with
  | error error => exact goes.bind_error
  | ok value =>
      rw [← List.append_nil made]
      exact goes.bind (goes_pure (change value) reached)

/-- An action goes as another that does the same from there. -/
theorem Goes.congr {other : Action Error (Channel (Logged σ)) α} {result : Except Error α}
    (same : action channel = other channel) (goes : Goes other channel made result reached) :
    Goes action channel made result reached :=
  ⟨same.trans goes.run, goes.log, goes.timeout, goes.budget⟩

/-- Looking at the channel makes no call. -/
theorem Goes.look {rest : Channel (Logged σ) → Action Error (Channel (Logged σ)) β}
    {result : Except Error β} (goes : Goes (rest channel) channel made result reached) :
    Goes (get >>= rest) channel made result reached where
  run := by rw [Action.bind_apply, Action.get_apply]; exact goes.run
  log := goes.log
  timeout := goes.timeout
  budget := goes.budget

theorem Goes.outcome {result : Except Error α} (goes : Goes action channel made result reached) :
    Goes action.outcome channel made (.ok result) reached where
  run := by rw [Action.outcome, goes.run]
  log := goes.log
  timeout := goes.timeout
  budget := goes.budget

/-- A call on the link is entered in the log, whatever comes of it. -/
theorem goes_onLink (channel : Channel (Logged σ)) (action : Action LinkFailure σ α)
    (entry : Except LinkFailure α → LinkCall) :
    ∃ outcome reached,
      Goes (onLink (Logged.record action entry)) channel [entry outcome]
        (outcome.mapError Error.link) reached ∧
      reached.sent = channel.sent := by
  rcases called : action channel.link.link with ⟨outcome, link⟩
  let reached : Channel (Logged σ) :=
    { channel with link := { link, log := channel.link.log ++ [entry outcome] } }
  refine ⟨outcome, reached, ⟨?_, rfl, rfl, rfl⟩, rfl⟩
  simp only [onLink, Action.within, Action.raise, Logged.record, called, reached]

end Steps

variable [Link σ]

theorem goes_resync (channel : Channel (Logged σ)) :
    ∃ made outcome reached, Handshakes channel.timeout made outcome ∧
      Goes resync channel made (acknowledged outcome) reached ∧ reached.sent = 0 := by
  let settled : Channel (Logged σ) := { channel with sent := 0 }
  have settling : Goes settle channel [] (.ok ()) settled :=
    ⟨rfl, (List.append_nil _).symm, rfl, rfl⟩
  obtain ⟨outcome, asked, asking, count⟩ :=
    goes_onLink settled (Link.send Handshake.marker) (.send Handshake.marker)
  cases outcome with
  | error failure =>
      exact ⟨_, _, asked, .unsent failure, settling.bind asking.bind_error, count⟩
  | ok done =>
      obtain ⟨outcome, reached, hearing, still⟩ :=
        goes_onLink asked (Link.receive Handshake.acknowledgement.length asked.timeout)
          (.receive Handshake.acknowledgement.length asked.timeout)
      have same : asked.timeout = channel.timeout := asking.timeout
      cases outcome with
      | error failure =>
          refine ⟨_, _, reached, .unheard failure, ?_, still.trans count⟩
          rw [← same]
          exact settling.bind (asking.bind (.look hearing.bind_error))
      | ok answer =>
          refine ⟨_, _, reached, .heard answer, ?_, still.trans count⟩
          have judging : Goes
              (if answer = Handshake.acknowledgement then pure () else throw .unacknowledged)
              reached [] (acknowledged (.ok answer)) reached := by
            rw [acknowledged]
            split
            · exact goes_pure () reached
            · exact goes_throw .unacknowledged reached
          rw [← same]
          exact settling.bind (asking.bind (.look (hearing.bind judging)))

theorem goes_realign (channel : Channel (Logged σ)) :
    ∃ made outcome reached, Handshakes channel.timeout made outcome ∧
      Goes realign channel made (tolerated outcome) reached ∧ reached.sent = 0 := by
  obtain ⟨made, outcome, reached, handshake, goes, settled⟩ := goes_resync channel
  refine ⟨made, outcome, reached, handshake, ?_, settled⟩
  rw [← List.append_nil made]
  refine goes.outcome.bind ?_
  cases outcome with
  | error failure => exact goes_throw (.link failure) reached
  | ok answer =>
      rw [acknowledged]
      by_cases right : answer = Handshake.acknowledgement
      · rw [if_pos right]
        exact goes_pure () reached
      · rw [if_neg right]
        exact goes_pure () reached

/-- A content that makes no frame, or one too large for the budget, touches nothing. -/
theorem send_refused {channel : Channel σ} {content : List Byte}
    (refused : Refused channel.budget content) :
    send content channel =
      (.error (.oversized (Envelope.frame content).length), channel) := by
  by_cases small : content.length ≤ Envelope.maxContent
  · have large : channel.budget ≤ (Envelope.frame content).length :=
      refused.resolve_left (Nat.not_lt_of_le small)
    simp only [send, Envelope.wrap, if_pos small, Action.ofExcept, Action.bind_apply,
      Action.get_apply, if_pos large, Action.throw_apply]
  · simp only [send, Envelope.wrap, if_neg small, Action.ofExcept, Action.bind_apply,
      Envelope.length_frame]

theorem send_room {channel : Channel σ} {content : List Byte}
    (fits : ¬ Refused channel.budget content)
    (room : ¬ Spent channel.budget channel.sent content) :
    send content channel = post (Envelope.frame content) channel := by
  simp only [Refused, not_or, Nat.not_lt] at fits
  rw [Spent] at room
  simp only [send, Envelope.wrap, if_pos fits.1, Action.ofExcept, Action.bind_apply,
    Action.get_apply, if_neg fits.2, if_neg room]

theorem send_spent {channel : Channel σ} {content : List Byte}
    (fits : ¬ Refused channel.budget content)
    (spent : Spent channel.budget channel.sent content) :
    send content channel = (do realign; post (Envelope.frame content)) channel := by
  simp only [Refused, not_or, Nat.not_lt] at fits
  rw [Spent] at spent
  simp only [send, Envelope.wrap, if_pos fits.1, Action.ofExcept, Action.bind_apply,
    Action.get_apply, if_neg fits.2, if_pos spent]

/-- A frame is counted before the link sees it. -/
theorem goes_post (channel : Channel (Logged σ)) (frame : List Byte) :
    ∃ outcome reached,
      Goes (post frame) channel [.send frame outcome] (outcome.mapError Error.link) reached ∧
      reached.sent = channel.sent + frame.length := by
  let counted : Channel (Logged σ) := { channel with sent := channel.sent + frame.length }
  have counting : Goes (count frame.length) channel [] (.ok ()) counted :=
    ⟨rfl, (List.append_nil _).symm, rfl, rfl⟩
  obtain ⟨outcome, reached, posting, still⟩ := goes_onLink counted (Link.send frame) (.send frame)
  exact ⟨outcome, reached, counting.bind posting, still⟩

theorem goes_send (channel : Channel (Logged σ)) (content : List Byte) :
    ∃ made result reached,
      Sends channel.budget channel.timeout channel.sent content made result reached.sent ∧
      Goes (send content) channel made result reached := by
  by_cases refused : Refused channel.budget content
  · exact ⟨_, _, channel, .refused refused, send_refused refused,
      (List.append_nil _).symm, rfl, rfl⟩
  by_cases spent : Spent channel.budget channel.sent content
  · obtain ⟨attempt, outcome, back, handshake, realigning, settled⟩ := goes_realign channel
    cases outcome with
    | error failure =>
        refine ⟨attempt, .error (.link failure), back, ?_,
          .congr (send_spent refused spent) realigning.bind_error⟩
        rw [settled]
        exact .stopped refused spent handshake
    | ok answer =>
        obtain ⟨outcome, reached, posting, counted⟩ := goes_post back (Envelope.frame content)
        refine ⟨_, outcome.mapError Error.link, reached, ?_,
          .congr (send_spent refused spent) (realigning.bind posting)⟩
        rw [counted, settled, Nat.zero_add]
        exact .realigned refused spent handshake outcome
  · obtain ⟨outcome, reached, posting, counted⟩ := goes_post channel (Envelope.frame content)
    refine ⟨_, outcome.mapError Error.link, reached, ?_, .congr (send_room refused spent) posting⟩
    rw [counted]
    exact .posted refused spent outcome

theorem goes_clear (channel : Channel (Logged σ)) :
    ∃ outcome reached,
      Goes clear channel [.discard outcome] (outcome.mapError Error.link) reached ∧
      reached.sent = channel.sent :=
  goes_onLink channel Link.discard .discard

theorem goes_receive (channel : Channel (Logged σ)) (size : Nat) :
    ∃ made result reached,
      Receives size channel.timeout channel.sent made result reached.sent ∧
      Goes (receive size) channel made result reached := by
  obtain ⟨outcome, heard, hearing, still⟩ :=
    goes_onLink channel (Link.receive (size + Envelope.overhead) channel.timeout)
      (.receive (size + Envelope.overhead) channel.timeout)
  cases outcome with
  | error failure =>
      refine ⟨_, _, heard, ?_, .look hearing.bind_error⟩
      rw [still]
      exact .failed failure
  | ok frame =>
      cases opened : Envelope.contents size frame with
      | ok content =>
          let settled : Channel (Logged σ) := { heard with sent := 0 }
          have accepting : Goes (do settle; pure content) heard [] (.ok content) settled :=
            ⟨rfl, (List.append_nil _).symm, rfl, rfl⟩
          refine ⟨_, _, settled, .accepted opened, .look (hearing.bind ?_)⟩
          simp only [opened]
          exact accepting
      | error error =>
          by_cases cut : ∃ expected received, error = .framing expected received
          · obtain ⟨expected, received, rfl⟩ := cut
            obtain ⟨outcome, cleared, clearing, left⟩ := goes_clear heard
            refine ⟨[.receive _ _ (.ok frame)] ++ [.discard outcome],
              .error (dropped expected received outcome), cleared, ?_, .look (hearing.bind ?_)⟩
            · rw [left, still]
              exact .cut opened outcome
            · simp only [opened]
              cases outcome with
              | ok done => exact clearing.bind (goes_throw (.framing expected received) cleared)
              | error failure => exact clearing.bind_error
          · have whole : ∀ expected received, error ≠ .framing expected received :=
              fun expected received same => cut ⟨expected, received, same⟩
            refine ⟨[.receive _ _ (.ok frame)] ++ [], .error error, heard, ?_,
              .look (hearing.bind ?_)⟩
            · rw [still]
              exact .rejected opened whole
            · -- the last alternative is the one left by `whole`
              simp only [opened]
              exact goes_throw error heard

theorem goes_load (channel : Channel (Logged σ)) (address : Word) (width : Width) :
    ∃ made result reached,
      Loads channel.budget channel.timeout channel.sent address width made result reached.sent ∧
      Goes (load address width) channel made result reached := by
  obtain ⟨outcome, cleared, clearing, still⟩ := goes_clear channel
  cases outcome with
  | error failure =>
      refine ⟨_, _, cleared, ?_, clearing.bind_error⟩
      rw [still]
      exact .uncleared failure
  | ok done =>
      obtain ⟨asked, result, sent, sending, asking⟩ :=
        goes_send cleared (Request.read address width).encode
      rw [clearing.budget, clearing.timeout, still] at sending
      cases result with
      | error error => exact ⟨_, _, sent, .unsent sending, clearing.bind asking.bind_error⟩
      | ok done =>
          obtain ⟨heard, result, reached, receiving, hearing⟩ := goes_receive sent width.bytes
          rw [asking.timeout, clearing.timeout] at receiving
          exact ⟨_, _, reached, .asked sending receiving,
            clearing.bind (asking.bind (hearing.map width.ofBytes))⟩

theorem goes_fetch (address : Word) (width : Width) (retries : Nat) :
    ∀ channel : Channel (Logged σ), ∃ made result reached,
      Fetches channel.budget channel.timeout address width retries channel.sent made result
        reached.sent ∧
      Goes (fetch address width retries) channel made result reached := by
  induction retries with
  | zero =>
      intro channel
      obtain ⟨made, result, reached, loading, goes⟩ := goes_load channel address width
      exact ⟨made, result, reached, .last loading, goes⟩
  | succ retries ih =>
      intro channel
      obtain ⟨made, result, loaded, loading, goes⟩ := goes_load channel address width
      cases result with
      | ok word =>
          refine ⟨_, _, loaded, .answered loading, ?_⟩
          rw [← List.append_nil made]
          exact goes.outcome.bind (goes_pure word loaded)
      | error error =>
          by_cases final : ∃ failure, error = .link failure
          · obtain ⟨failure, rfl⟩ := final
            refine ⟨_, _, loaded, .stopped loading, ?_⟩
            rw [← List.append_nil made]
            exact goes.outcome.bind (goes_throw (.link failure) loaded)
          · have passing : ∀ failure, error ≠ .link failure :=
              fun failure same => final ⟨failure, same⟩
            obtain ⟨attempt, outcome, back, handshake, realigning, settled⟩ := goes_realign loaded
            rw [goes.timeout] at handshake
            cases outcome with
            | error failure =>
                refine ⟨made ++ attempt, .error (.link failure), back, ?_, goes.outcome.bind ?_⟩
                · rw [settled]
                  exact .unrealigned loading passing handshake
                · simp only
                  exact realigning.bind_error
            | ok answer =>
                obtain ⟨more, result, reached, rest, trying⟩ := ih back
                rw [realigning.budget, goes.budget, realigning.timeout, goes.timeout, settled]
                  at rest
                refine ⟨made ++ (attempt ++ more), result, reached,
                  .again loading passing handshake rest, goes.outcome.bind ?_⟩
                simp only
                exact realigning.bind trying

end Channel

end RegisterLink
