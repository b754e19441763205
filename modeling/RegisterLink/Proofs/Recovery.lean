import RegisterLink.Proofs.Access
import RegisterLink.Proofs.Cable
import RegisterLink.Proofs.Polling

/-!
# Recovery

Whatever goes wrong on a cable, a call reaches the device whole or not at all, so
the device never holds a part of a packet.  That is all a read needs, once the
cable is quiet: what was left unread is dropped before its request is sent, and
a handshake on the way takes its own acknowledgement away.
-/

namespace RegisterLink

open RegisterLink.Action (Keeps)

namespace Device

/-- The device holds no part of a packet. -/
def Idle (device : Device) : Prop := device.inbound = []

variable {device : Device}

theorem Idle.execute (idle : device.Idle) (request : Request) :
    (device.execute request).2.Idle := by
  rw [Device.execute]
  split
  case h_1 =>
    rw [answer]
    split
    · exact idle
    · exact idle
  case h_2 => exact idle

theorem Idle.upset (idle : device.Idle) (upset : Upset) : (upset.apply device).Idle := by
  cases upset with
  | silence count => exact idle
  | poke address value => exact idle

theorem Idle.upsets (upsets : List Upset) :
    ∀ {device : Device}, device.Idle → (upsets.foldl Upset.apply device).Idle := by
  induction upsets with
  | nil => exact id
  | cons upset upsets ih => exact fun idle => ih (idle.upset upset)

/-- A request is taken in completely. -/
theorem keeps_send_request (request : Request) :
    Keeps Idle (Link.send (σ := Device) (Envelope.frame request.encode)) := by
  intro device idle
  change (device.feed (Envelope.frame request.encode)).inbound = []
  rw [feed_request idle]
  exact idle.execute request.canonical

theorem keeps_send_marker : Keeps Idle (Link.send (σ := Device) Handshake.marker) := by
  intro device idle
  change (device.feed Handshake.marker).inbound = []
  rw [feed_marker idle, inbound_say]
  exact idle

theorem keeps_receive (size timeout : Nat) :
    Keeps Idle (Link.receive (σ := Device) size timeout) :=
  fun _ idle => idle

theorem keeps_discard : Keeps Idle (Link.discard (σ := Device)) :=
  fun _ idle => idle

end Device

namespace Cable

/-- What happens at a call does not break the device's hold on its packets. -/
theorem keeps_pass {α : Type} {call : Moment → Action LinkFailure Device α}
    (kept : ∀ moment, Keeps Device.Idle (call moment)) :
    Keeps (·.device.Idle) (pass call) := by
  intro cable idle
  have upset := Device.Idle.upsets (cable.ahead.headD {}).upsets idle
  simp only [pass]
  split
  · exact upset
  · exact kept _ _ upset

theorem keeps_send_request (request : Request) :
    Keeps (·.device.Idle) (Link.send (σ := Cable) (Envelope.frame request.encode)) :=
  keeps_pass fun _ => Device.keeps_send_request request

theorem keeps_send_marker :
    Keeps (·.device.Idle) (Link.send (σ := Cable) Handshake.marker) :=
  keeps_pass fun _ => Device.keeps_send_marker

theorem keeps_receive (size timeout : Nat) :
    Keeps (·.device.Idle) (Link.receive (σ := Cable) size timeout) :=
  keeps_pass fun _ => (Device.keeps_receive _ timeout).bind fun _ => .pure _

theorem keeps_discard : Keeps (·.device.Idle) (Link.discard (σ := Cable)) :=
  keeps_pass fun _ => Device.keeps_discard

end Cable

namespace Channel

variable {budget : Nat}

/-- The channel keeps its budget, and its device holds no part of a packet. -/
structure Sound (budget : Nat) (channel : Channel Cable) : Prop where
  budget : channel.budget = budget
  idle : channel.link.device.Idle

theorem keeps_onLink {α : Type} {action : Action LinkFailure Cable α}
    (kept : Keeps (·.device.Idle) action) : Keeps (Sound budget) (onLink action) :=
  (kept.raise Error.link).within (fun _ sound => sound.idle)
    fun _ _ sound idle => ⟨sound.budget, idle⟩

theorem keeps_settle : Keeps (Sound budget) settle :=
  .update fun _ sound => ⟨sound.budget, sound.idle⟩

theorem keeps_count (size : Nat) : Keeps (Sound budget) (count size) :=
  .update fun _ sound => ⟨sound.budget, sound.idle⟩

theorem keeps_clear : Keeps (Sound budget) clear := keeps_onLink Cable.keeps_discard

theorem keeps_resync : Keeps (Sound budget) resync := by
  refine keeps_settle.bind fun _ => (keeps_onLink Cable.keeps_send_marker).bind fun _ =>
    Keeps.get.bind fun channel => (keeps_onLink (Cable.keeps_receive _ _)).bind fun answer => ?_
  split
  · exact .pure ()
  · exact .throw _

theorem keeps_realign : Keeps (Sound budget) realign := by
  refine keeps_resync.outcome.bind fun outcome => ?_
  split
  · exact .throw _
  · exact .pure ()

theorem keeps_post (request : Request) :
    Keeps (Sound budget) (post (Envelope.frame request.encode)) :=
  (keeps_count _).bind fun _ => keeps_onLink (Cable.keeps_send_request request)

theorem keeps_send (request : Request) : Keeps (Sound budget) (send request.encode) := by
  rw [send, wrap_encode]
  refine .known (Keeps.get.bind fun channel => ?_)
  split
  · exact .throw _
  · dsimp only
    split
    · exact keeps_realign.bind fun _ => keeps_post request
    · exact keeps_post request

theorem keeps_receive (size : Nat) : Keeps (Sound budget) (receive (σ := Cable) size) := by
  refine Keeps.get.bind fun channel => (keeps_onLink (Cable.keeps_receive _ _)).bind fun frame => ?_
  split
  · exact keeps_settle.bind fun _ => .pure _
  · exact keeps_clear.bind fun _ => .throw _
  · exact .throw _

theorem keeps_load (address : Word) (width : Width) :
    Keeps (Sound budget) (load address width) :=
  keeps_clear.bind fun _ => (keeps_send _).bind fun _ => (keeps_receive _).bind fun _ => .pure _

theorem keeps_fetch (address : Word) (width : Width) (retries : Nat) :
    Keeps (Sound budget) (fetch address width retries) := by
  induction retries with
  | zero => exact keeps_load address width
  | succ retries ih =>
      refine (keeps_load address width).outcome.bind fun outcome => ?_
      split
      · exact .pure _
      · exact .throw _
      · exact keeps_realign.bind fun _ => ih

end Channel

namespace Session

variable {α : Type} {budget : Nat}

theorem keeps_onChannel {action : Action Error (Channel Cable) α}
    (kept : Keeps (Channel.Sound budget) action) :
    Keeps (·.channel.Sound budget) (onChannel action) :=
  kept.within (fun _ sound => sound) fun _ _ _ sound => sound

theorem keeps_note (entry : Trace → Trace) :
    Keeps (fun session : Session Cable => session.channel.Sound budget) (note entry) :=
  fun _ sound => sound

theorem keeps_aligned {address : Word} {access : Action Error (Session Cable) α}
    (kept : Keeps (·.channel.Sound budget) access) :
    Keeps (·.channel.Sound budget) (aligned address access) := by
  rw [aligned]
  split
  · exact kept
  · exact .throw _

theorem keeps_readBits (address : Word) (width : Width) (mask : Word) (placement : Placement)
    (label : String) :
    Keeps (·.channel.Sound budget) (readBits (σ := Cable) address width mask placement label) :=
  keeps_aligned (Keeps.get.bind fun _ => (keeps_onChannel (Channel.keeps_fetch _ _ _)).bind
    fun _ => (keeps_note _).bind fun _ => .pure _)

theorem keeps_writeBits (address : Word) (width : Width) (mask value : Word)
    (placement : Placement) (label : String) :
    Keeps (·.channel.Sound budget)
      (writeBits (σ := Cable) address width mask value placement label) :=
  keeps_aligned ((keeps_onChannel (Channel.keeps_send _)).bind fun _ => keeps_note _)

theorem keeps_awaitField (field : Field) (awaited : Word) (timeout : Nat) :
    Keeps (·.channel.Sound budget) (awaitField (σ := Cable) field awaited timeout) := by
  refine (keeps_note _).bind fun _ => Keeps.get.bind fun session =>
    Keeps.bind (Keeps.outcome (keeps_polling (keeps_readBits _ _ _ _ _) _ _)) fun outcome => ?_
  split
  · exact keeps_note _
  · exact (keeps_note _).bind fun _ => .throw _

theorem keeps_silent {access : Action Error (Session Cable) Unit}
    (kept : Keeps (·.channel.Sound budget) access) :
    Keeps (·.channel.Sound budget) (silent access) :=
  kept.bind fun _ => .pure none

theorem keeps_make (access : Access) :
    Keeps (·.channel.Sound budget) (make (σ := Cable) access) := by
  cases access with
  | read address width mask placement label => exact (keeps_readBits _ _ _ _ _).map some
  | write address width mask value placement label =>
      exact keeps_silent (keeps_writeBits _ _ _ _ _ _)
  | wait field awaited timeout => exact keeps_silent (keeps_awaitField _ _ _)
  | resync => exact keeps_silent (keeps_onChannel Channel.keeps_resync)
  | clear => exact keeps_silent (keeps_onChannel Channel.keeps_clear)
  | barrier => exact keeps_silent (keeps_note _)

/-- What can be done to a session on a cable. -/
inductive Step where
  | perform (command : Command)
  /-- A receive on the channel without a request. -/
  | receive (size : Nat)
  /-- Something else gets at the device. -/
  | upset (upset : Upset)

/-- The session after a step, whatever the result. -/
def step (session : Session Cable) : Step → Session Cable
  | .perform command => (perform command session).2
  | .receive size => (onChannel (Channel.receive size) session).2
  | .upset upset => session.mapLink fun cable => { cable with device := upset.apply cable.device }

def run (session : Session Cable) (steps : List Step) : Session Cable :=
  steps.foldl Session.step session

variable {session : Session Cable}

theorem sound_step (sound : session.channel.Sound budget) (step : Step) :
    (session.step step).channel.Sound budget := by
  cases step with
  | perform command =>
      rw [Session.step, ← make_access]
      exact keeps_make command.access session sound
  | receive size => exact keeps_onChannel (Channel.keeps_receive size) session sound
  | upset upset => exact ⟨sound.budget, sound.idle.upset upset⟩

theorem sound_run (steps : List Step) :
    ∀ {session : Session Cable}, session.channel.Sound budget →
      (session.run steps).channel.Sound budget := by
  induction steps with
  | nil => exact id
  | cons step steps ih => exact fun sound => ih (sound_step sound step)

end Session

end RegisterLink
