import RegisterLink.Channel
import RegisterLink.Proofs.Device

/-!
# Exchanges with a device

A link carries a device when, as long as it is quiet, its calls do to the device
what they say and nothing else.  On such a link every exchange of a channel is
known: a handshake leaves memory alone, a request that fits the budget is
executed once, and a read gives either the part of the word that it asked for or
no answer.  Answers may be dropped, so nothing here needs them to come.
-/

namespace RegisterLink

/-- While the link is quiet, its calls succeed and reach the device as they are. -/
structure Carries {σ : Type} [Link σ] (device : σ → Device) (quiet : σ → Prop) : Prop where
  send (data : List Byte) {link : σ} (calm : quiet link) :
    ∃ reached, Link.send data link = (.ok (), reached) ∧ quiet reached ∧
      device reached = (device link).feed data
  receive (size timeout : Nat) {link : σ} (calm : quiet link) :
    ∃ reached, Link.receive size timeout link = (.ok ((device link).outbound.take size), reached) ∧
      quiet reached ∧
      device reached = { device link with outbound := (device link).outbound.drop size }
  discard {link : σ} (calm : quiet link) :
    ∃ reached, Link.discard link = (.ok (), reached) ∧ quiet reached ∧
      device reached = { device link with outbound := [] }

namespace Device

/-- A device that was at most read from, and holds no part of a packet. -/
structure Kept (before after : Device) : Prop where
  memory : after.memory = before.memory
  idle : after.inbound = []

/-- What a handshake may change of a device. -/
structure Realigned (before after : Device) : Prop extends Kept before after where
  requests : after.requests = before.requests
  drained : before.outbound = [] → after.outbound = []
  heard : before.silenced = 0 → after.silenced = 0

/-- A device after one read that was answered and received. -/
structure Answered (before after : Device) : Prop extends Kept before after where
  requests : after.requests = before.requests + 1
  drained : after.outbound = []
  heard : after.silenced = 0

/-- A device that has seen a marker. -/
def mark (device : Device) : Device :=
  { device with syncs := device.syncs + 1 }.say Handshake.acknowledgement

/-- A device from which the host has received some bytes. -/
def hear (device : Device) (size : Nat) : Device :=
  { device with outbound := device.outbound.drop size }

/-- A device after a read whose answer, if it was not dropped, has been received. -/
def polled (device : Device) : Device :=
  { device with
    outbound := []
    silenced := device.silenced - 1
    requests := device.requests + 1 }

variable {held : Device}

theorem Kept.trans {first second third : Device} (before : first.Kept second)
    (after : second.Kept third) : first.Kept third :=
  ⟨after.memory.trans before.memory, after.idle⟩

theorem Kept.peek {before after : Device} (kept : before.Kept after) (address : Word) :
    after.peek address = before.peek address := by
  rw [Device.peek, kept.memory, Device.peek]

theorem Realigned.refl (idle : held.inbound = []) : Realigned held held where
  memory := rfl
  requests := rfl
  idle := idle
  drained := id
  heard := id

/-- A handshake takes no more than its acknowledgement away. -/
theorem realigned_mark (idle : held.inbound = []) : Realigned held (held.mark.hear 2) where
  memory := memory_say _
  requests := requests_say _
  idle := (inbound_say _).trans idle
  drained := by
    intro empty
    rw [mark, say, hear]
    split <;> simp [empty, Handshake.acknowledgement]
  heard := by
    intro heard
    simp [mark, say, hear, heard]

/-- A device that is heard acknowledges a marker. -/
theorem acknowledged_mark (empty : held.outbound = []) (heard : held.silenced = 0) :
    held.mark.outbound.take 2 = Handshake.acknowledgement := by
  simp [mark, say, heard, empty, Handshake.acknowledgement]

end Device

namespace Channel

variable {σ α : Type}

/-- A call on the link that succeeds leaves the rest of the channel alone. -/
theorem onLink_apply (channel : Channel σ) {action : Action LinkFailure σ α} {value : α}
    {reached : σ} (called : action channel.link = (.ok value, reached)) :
    onLink action channel = (.ok value, { channel with link := reached }) := by
  rw [onLink, Action.within, Action.raise, called]
  rfl

variable [Link σ] {device : σ → Device} {quiet : σ → Prop}

/-- Where a channel is after an exchange: on a quiet link, at a device, with its old budget. -/
structure At (device : σ → Device) (quiet : σ → Prop) (channel : Channel σ) (budget : Nat)
    (held : Device) : Prop where
  budget : channel.budget = budget
  calm : quiet channel.link
  held : device channel.link = held

variable {channel : Channel σ} {budget : Nat} {held : Device}

theorem clear_apply (carries : Carries device quiet) (here : channel.At device quiet budget held) :
    ∃ reached, clear channel = (.ok (), reached) ∧
      reached.At device quiet budget { held with outbound := [] } := by
  obtain ⟨link, called, calm, gone⟩ := carries.discard here.calm
  refine ⟨{ channel with link }, onLink_apply channel called, here.budget, calm, ?_⟩
  rw [gone, here.held]

/-- A handshake is acknowledged when the acknowledgement is the next to be received. -/
theorem resync_apply (carries : Carries device quiet) (here : channel.At device quiet budget held)
    (idle : held.inbound = []) :
    ∃ reached,
      resync channel =
        (if held.mark.outbound.take 2 = Handshake.acknowledgement then .ok ()
          else .error .unacknowledged, reached) ∧
      reached.At device quiet budget (held.mark.hear 2) := by
  obtain ⟨asked, sent, calm, fed⟩ := carries.send Handshake.marker here.calm
  have marked : device asked = held.mark := by rw [fed, here.held, Device.feed_marker idle]; rfl
  obtain ⟨link, received, calm, heard⟩ :=
    carries.receive Handshake.acknowledgement.length channel.timeout calm
  rw [marked] at received heard
  have first : onLink (Link.send Handshake.marker) { channel with sent := 0 } =
      (.ok (), { channel with link := asked, sent := 0 }) :=
    onLink_apply { channel with sent := 0 } sent
  have second : onLink (Link.receive Handshake.acknowledgement.length channel.timeout)
      { channel with link := asked, sent := 0 } =
        (.ok (held.mark.outbound.take 2), { channel with link, sent := 0 }) :=
    onLink_apply { channel with link := asked, sent := 0 } received
  refine ⟨{ channel with link, sent := 0 }, ?_, here.budget, calm, heard⟩
  simp only [resync, Action.bind_apply, settle, Action.update, Action.get_apply, first, second]
  split <;> rfl

theorem realign_apply (carries : Carries device quiet) (here : channel.At device quiet budget held)
    (idle : held.inbound = []) :
    ∃ reached, realign channel = (.ok (), reached) ∧
      reached.At device quiet budget (held.mark.hear 2) := by
  obtain ⟨reached, done, there⟩ := resync_apply carries here idle
  refine ⟨reached, ?_, there⟩
  simp only [realign, Action.bind_apply, Action.outcome, done]
  split <;> simp_all [Action.pure_apply]

/-- The frame of a request never outgrows the size bytes. -/
theorem wrap_encode (request : Request) :
    Envelope.wrap request.encode = .ok (Envelope.frame request.encode) :=
  if_pos (Nat.le_trans request.length_encode_le (by decide))

/-- A request that does not fit the budget is not sent. -/
theorem send_oversized (request : Request)
    (large : channel.budget ≤ (Envelope.frame request.encode).length) :
    send request.encode channel =
      (.error (.oversized (Envelope.frame request.encode).length), channel) := by
  simp only [send, wrap_encode, Action.ofExcept, Action.bind_apply, Action.get_apply, if_pos large,
    Action.throw_apply]

/-- Bytes that are sent are counted and reach the device. -/
theorem post_apply (carries : Carries device quiet) (here : channel.At device quiet budget held)
    (frame : List Byte) :
    ∃ reached, post frame channel = (.ok (), reached) ∧
      reached.At device quiet budget (held.feed frame) := by
  obtain ⟨link, sent, calm, fed⟩ := carries.send frame here.calm
  let counted : Channel σ := { channel with sent := channel.sent + frame.length }
  have called : onLink (Link.send frame) counted = (.ok (), { counted with link }) :=
    onLink_apply counted sent
  refine ⟨{ counted with link }, called, here.budget, calm, ?_⟩
  rw [fed, here.held]

/-- One that fits reaches the device, perhaps after a handshake. -/
theorem send_apply (carries : Carries device quiet) (here : channel.At device quiet budget held)
    (idle : held.inbound = []) (request : Request)
    (fits : (Envelope.frame request.encode).length < budget) :
    ∃ reached between, send request.encode channel = (.ok (), reached) ∧
      held.Realigned between ∧
      reached.At device quiet budget (between.feed (Envelope.frame request.encode)) := by
  have small : ¬ channel.budget ≤ (Envelope.frame request.encode).length := by
    rw [here.budget]
    exact Nat.not_le_of_lt fits
  by_cases spent : channel.budget ≤ channel.sent + (Envelope.frame request.encode).length
  · obtain ⟨back, realigned, there⟩ := realign_apply carries here idle
    obtain ⟨reached, posted, done⟩ := post_apply carries there (Envelope.frame request.encode)
    refine ⟨reached, held.mark.hear 2, ?_, Device.realigned_mark idle, done⟩
    rw [← posted]
    simp only [send, wrap_encode, Action.ofExcept, Action.bind_apply, Action.get_apply,
      if_neg small, if_pos spent, realigned]
  · obtain ⟨reached, posted, done⟩ := post_apply carries here (Envelope.frame request.encode)
    refine ⟨reached, held, ?_, Device.Realigned.refl idle, done⟩
    rw [← posted]
    simp only [send, wrap_encode, Action.ofExcept, Action.bind_apply, Action.get_apply,
      if_neg small, if_neg spent]

/-- An answer that has come whole is received, and nothing of it stays behind. -/
theorem receive_answer (carries : Carries device quiet)
    (here : channel.At device quiet budget held) {content : List Byte}
    (small : content.length ≤ Envelope.maxContent)
    (answered : held.outbound = Envelope.frame content) :
    ∃ reached, receive content.length channel = (.ok content, reached) ∧
      reached.At device quiet budget { held with outbound := [] } := by
  obtain ⟨link, received, calm, left⟩ :=
    carries.receive (content.length + Envelope.overhead) channel.timeout here.calm
  rw [here.held, answered, ← Envelope.length_frame, List.take_length] at received
  rw [here.held, answered, ← Envelope.length_frame, List.drop_length] at left
  have called := onLink_apply channel received
  refine ⟨{ channel with link, sent := 0 }, ?_, here.budget, calm, left⟩
  rw [Envelope.length_frame] at called
  simp only [receive, Action.bind_apply, Action.get_apply, called,
    Envelope.contents_frame small, settle, Action.update, Action.pure_apply]

/-- Without an answer a receive gives up and changes nothing. -/
theorem receive_silence (carries : Carries device quiet)
    (here : channel.At device quiet budget held) (size : Nat) (silent : held.outbound = []) :
    ∃ reached, receive size channel = (.error .timeout, reached) ∧
      reached.At device quiet budget held := by
  obtain ⟨link, received, calm, left⟩ :=
    carries.receive (size + Envelope.overhead) channel.timeout here.calm
  rw [here.held, silent, List.take_nil] at received
  rw [here.held, silent, List.drop_nil, ← silent] at left
  have called := onLink_apply channel received
  refine ⟨{ channel with link }, ?_, here.budget, calm, left⟩
  simp only [receive, Action.bind_apply, Action.get_apply, called,
    Envelope.contents, List.length_nil, if_true, Action.throw_apply]

/--
A read whose request fits the budget is executed once.  It gives what the device
holds, unless the answer is dropped.
-/
theorem load_apply (carries : Carries device quiet)
    (here : channel.At device quiet budget held) (idle : held.inbound = [])
    (fits : 10 < budget) (address : Word) (width : Width) :
    ∃ reached between,
      load address width channel =
        (if between.silenced = 0 then .ok (held.peek address &&& width.mask) else .error .timeout,
          reached) ∧
      { held with outbound := [] }.Realigned between ∧
      reached.At device quiet budget between.polled := by
  obtain ⟨cleared, emptied, clear⟩ := clear_apply carries here
  obtain ⟨asked, between, sent, realigned, feeding⟩ :=
    send_apply carries clear idle (.read address width) fits
  have drained := realigned.drained rfl
  have peeked : between.peek address = held.peek address := realigned.peek address
  rw [Device.feed_read realigned.idle, peeked, Device.say] at feeding
  by_cases heard : between.silenced = 0
  · rw [if_pos heard, drained, List.nil_append] at feeding
    have small : (width.toBytes (held.peek address)).length ≤ Envelope.maxContent := by
      rw [Width.length_toBytes]
      exact Nat.le_trans width.bytes_le (by decide)
    obtain ⟨reached, received, there⟩ := receive_answer carries feeding small rfl
    rw [Width.length_toBytes] at received
    refine ⟨reached, between, ?_, realigned, ?_⟩
    · simp only [load, Action.bind_apply, emptied, sent, received, Action.pure_apply,
        Width.ofBytes_toBytes, if_pos heard]
    · simpa only [Device.polled, heard] using there
  · rw [if_neg heard] at feeding
    obtain ⟨reached, received, there⟩ := receive_silence carries feeding width.bytes drained
    refine ⟨reached, between, ?_, realigned, ?_⟩
    · simp only [load, Action.bind_apply, emptied, sent, received, if_neg heard]
    · simpa only [Device.polled, drained] using there

theorem load_oversized (carries : Carries device quiet)
    (here : channel.At device quiet budget held) (large : budget ≤ 10) (address : Word)
    (width : Width) :
    ∃ reached, load address width channel = (.error (.oversized 10), reached) ∧
      reached.At device quiet budget { held with outbound := [] } := by
  obtain ⟨cleared, emptied, clear⟩ := clear_apply carries here
  have refused := send_oversized (.read address width)
    (show cleared.budget ≤ _ from clear.budget.symm ▸ large)
  refine ⟨cleared, ?_, clear⟩
  simp only [load, Action.bind_apply, emptied, refused]
  rfl

/-- A read gives nothing that the device does not hold, and changes nothing there. -/
theorem load_kept (carries : Carries device quiet)
    (here : channel.At device quiet budget held) (idle : held.inbound = []) (address : Word)
    (width : Width) :
    ∃ result reached after, load address width channel = (result, reached) ∧
      reached.At device quiet budget after ∧ held.Kept after ∧
      ∀ word, result = .ok word → word = held.peek address &&& width.mask := by
  by_cases fits : 10 < budget
  · obtain ⟨reached, between, called, realigned, there⟩ :=
      load_apply carries here idle fits address width
    refine ⟨_, reached, between.polled, called, there, ⟨realigned.memory, realigned.idle⟩, ?_⟩
    intro word read
    split at read
    · exact (Except.ok.inj read).symm
    · cases read
  · obtain ⟨reached, called, there⟩ :=
      load_oversized carries here (Nat.le_of_not_lt fits) address width
    exact ⟨_, reached, _, called, there, ⟨rfl, idle⟩, fun _ read => nomatch read⟩

/-- An exchange that failed, and not by the link, is made again after a handshake. -/
theorem fetch_again {address : Word} {width : Width} {error : Error} {reached : Channel σ}
    (called : load address width channel = (.error error, reached))
    (passing : ∀ failure, error ≠ .link failure) (retries : Nat) :
    fetch address width (retries + 1) channel =
      (do realign; fetch address width retries) reached := by
  -- the last alternative is the one left by `passing`
  simp only [fetch, Action.bind_apply, Action.outcome, called]

/-- However often it is tried again, a read gives nothing else. -/
theorem fetch_kept (carries : Carries device quiet) (address : Word) (width : Width)
    (retries : Nat) :
    ∀ {channel : Channel σ} {held : Device}, channel.At device quiet budget held →
      held.inbound = [] →
        ∃ result reached after, fetch address width retries channel = (result, reached) ∧
          reached.At device quiet budget after ∧ held.Kept after ∧
          ∀ word, result = .ok word → word = held.peek address &&& width.mask := by
  induction retries with
  | zero =>
      intro channel held here idle
      exact load_kept carries here idle address width
  | succ retries ih =>
      intro channel held here idle
      obtain ⟨result, reached, after, called, there, kept, right⟩ :=
        load_kept carries here idle address width
      cases result with
      | ok word =>
          refine ⟨.ok word, reached, after, ?_, there, kept, right⟩
          simp only [fetch, Action.bind_apply, Action.outcome, called, Action.pure_apply]
      | error error =>
          by_cases final : ∃ failure, error = .link failure
          · obtain ⟨failure, rfl⟩ := final
            refine ⟨.error (.link failure), reached, after, ?_, there, kept,
              fun _ read => nomatch read⟩
            simp only [fetch, Action.bind_apply, Action.outcome, called, Action.throw_apply]
          · have passing : ∀ failure, error ≠ .link failure :=
              fun failure same => final ⟨failure, same⟩
            obtain ⟨back, realigned, again⟩ := realign_apply carries there kept.idle
            have marked := kept.trans (Device.realigned_mark kept.idle).toKept
            obtain ⟨result, last, done, tried, there, kept', right⟩ := ih again marked.idle
            refine ⟨result, last, done, ?_, there, marked.trans kept', ?_⟩
            · simp only [fetch_again called passing, Action.bind_apply, realigned, tried]
            · intro word read
              rw [right word read, marked.peek]

/-- A device that is heard answers a read on its first exchange. -/
theorem fetch_answered (carries : Carries device quiet)
    (here : channel.At device quiet budget held) (idle : held.inbound = [])
    (heard : held.silenced = 0) (fits : 10 < budget) (address : Word) (width : Width)
    (retries : Nat) :
    ∃ reached after,
      fetch address width retries channel = (.ok (held.peek address &&& width.mask), reached) ∧
        reached.At device quiet budget after ∧ held.Answered after := by
  obtain ⟨reached, between, called, realigned, there⟩ :=
    load_apply carries here idle fits address width
  have silent : between.silenced = 0 := realigned.heard heard
  rw [if_pos silent] at called
  refine ⟨reached, between.polled, ?_, there, ⟨realigned.memory, realigned.idle⟩,
    congrArg (· + 1) realigned.requests, rfl, congrArg (· - 1) silent⟩
  cases retries with
  | zero => exact called
  | succ retries =>
      simp only [fetch, Action.bind_apply, Action.outcome, called, Action.pure_apply]

end Channel

end RegisterLink
