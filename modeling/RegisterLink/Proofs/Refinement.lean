import RegisterLink.Link
import RegisterLink.Proofs.Access
import RegisterLink.Proofs.Channel

/-!
# Sessions serve a plain memory

On a link that loses nothing, a session is a memory of words: a read extracts
from a word, a write replaces bits of one, and whatever the channel does to keep
the device in step does not show.  The link keeps a log, so that an access that
is refused is seen not to have touched it.
-/

namespace RegisterLink

/-- A memory of words that counts the accesses made to it. -/
structure Plain where
  memory : BitVec 30 → Word
  requests : Nat

namespace Plain

/-- Replaces the bits under a mask in the word at an address. -/
def write (plain : Plain) (address mask value : Word) : Plain where
  memory := fun index =>
    if index = Address.index address then maskedWrite mask value (plain.memory index)
    else plain.memory index
  requests := plain.requests + 1

/-- What an access gives and leaves behind; an unaligned one is refused. -/
def make (plain : Plain) : Access → Except Error (Option Word) × Plain
  | .read address width mask placement _ =>
      if Address.Aligned address then
        (.ok (some (placement.shown (plain.memory (Address.index address) &&& width.mask) mask)),
          { plain with requests := plain.requests + 1 })
      else (.error (.unaligned address), plain)
  | .write address width mask value placement _ =>
      if Address.Aligned address then
        (.ok none, plain.write address (width.reach mask) (placement.placed value mask))
      else (.error (.unaligned address), plain)
  | _ => (.ok none, plain)

/-- The results of some commands, in order, and the memory after them. -/
def performAll (plain : Plain) : List Command → List (Except Error (Option Word)) × Plain
  | [] => ([], plain)
  | command :: commands =>
      let (result, plain) := plain.make command.access
      let (results, plain) := plain.performAll commands
      (result :: results, plain)

end Plain

/-- The access does not wait for a value to show. -/
def Access.immediate : Access → Bool
  | wait _ _ _ => false
  | _ => true

/-- The address that an access reads or writes, unless it waits. -/
def Access.address? : Access → Option Word
  | read address _ _ _ _ => some address
  | write address _ _ _ _ _ => some address
  | _ => none

/-- Nothing comes between a logged link and its device. -/
theorem Logged.carries :
    Carries (fun link : Logged (Timed Device) => link.link.link) fun _ => True where
  send _ _ _ := ⟨_, rfl, trivial, rfl⟩
  receive _ _ _ _ := ⟨_, rfl, trivial, rfl⟩
  discard _ := ⟨_, rfl, trivial, rfl⟩

namespace Session

def device (session : Session (Logged (Timed Device))) : Device := session.link.link.link

/-- A session that has served a plain memory so far, and is able to go on. -/
structure Serves (session : Session (Logged (Timed Device))) (plain : Plain) : Prop where
  enough : 18 < session.channel.budget
  idle : session.device.inbound = []
  drained : session.device.outbound = []
  heard : session.device.silenced = 0
  memory : session.device.memory = plain.memory
  requests : session.device.requests = plain.requests

variable {session : Session (Logged (Timed Device))} {plain : Plain} {address : Word}

theorem here (session : Session (Logged (Timed Device))) :
    session.channel.At (·.link.link) (fun _ => True) session.channel.budget session.device :=
  ⟨rfl, trivial, rfl⟩

/-- A session serves what its device holds, if the device is at rest. -/
theorem Serves.of_at {budget : Nat} {held : Device}
    (there : session.channel.At (·.link.link) (fun _ => True) budget held) (enough : 18 < budget)
    (idle : held.inbound = []) (drained : held.outbound = []) (heard : held.silenced = 0)
    (memory : held.memory = plain.memory) (requests : held.requests = plain.requests) :
    session.Serves plain := by
  obtain rfl := there.held
  exact ⟨there.budget ▸ enough, idle, drained, heard, memory, requests⟩

theorem Serves.readBits (serves : session.Serves plain) (aligned : Address.Aligned address)
    (width : Width) (mask : Word) (placement : Placement) (label : String) :
    ∃ reached,
      Session.readBits address width mask placement label session =
        (.ok (placement.shown (plain.memory (Address.index address) &&& width.mask) mask),
          reached) ∧
      reached.Serves { plain with requests := plain.requests + 1 } := by
  have fits : 10 < session.channel.budget := Nat.lt_trans (by decide) serves.enough
  obtain ⟨channel, after, called, there, answered⟩ :=
    Channel.fetch_answered Logged.carries session.here serves.idle serves.heard fits address width
      session.config.retries
  rw [Device.peek, serves.memory] at called
  rw [← Placement.extract_eq]
  refine ⟨_, readBits_apply aligned called mask placement label, ?_⟩
  exact .of_at there serves.enough answered.idle answered.drained answered.heard
    (answered.memory.trans serves.memory)
    (answered.requests.trans (congrArg (· + 1) serves.requests))

theorem Serves.writeBits (serves : session.Serves plain) (aligned : Address.Aligned address)
    (width : Width) (mask value : Word) (placement : Placement) (label : String) :
    ∃ reached,
      Session.writeBits address width mask value placement label session = (.ok (), reached) ∧
      reached.Serves (plain.write address (width.reach mask) (placement.placed value mask)) := by
  rw [← Placement.position_eq]
  let request := Request.write address width mask (placement.position value mask)
  have fits : (Envelope.frame request.encode).length < session.channel.budget :=
    Nat.lt_of_le_of_lt request.length_frame_le serves.enough
  obtain ⟨channel, between, called, realigned, there⟩ :=
    Channel.send_apply Logged.carries session.here serves.idle request fits
  rw [Device.feed_write realigned.idle] at there
  refine ⟨_, writeBits_apply aligned called label, ?_⟩
  have memory : between.memory = plain.memory := realigned.memory.trans serves.memory
  have requests : between.requests = plain.requests := realigned.requests.trans serves.requests
  refine .of_at there serves.enough realigned.idle (realigned.drained serves.drained)
    (realigned.heard serves.heard) ?_ (congrArg (· + 1) requests)
  rw [Device.memory_write, memory]
  rfl

theorem Serves.resync (serves : session.Serves plain) :
    ∃ reached, Session.resync session = (.ok (), reached) ∧ reached.Serves plain := by
  obtain ⟨channel, called, there⟩ := Channel.resync_apply Logged.carries session.here serves.idle
  have realigned := Device.realigned_mark serves.idle
  rw [if_pos (Device.acknowledged_mark serves.drained serves.heard)] at called
  refine ⟨_, onChannel_apply called, ?_⟩
  exact .of_at there serves.enough realigned.idle (realigned.drained serves.drained)
    (realigned.heard serves.heard) (realigned.memory.trans serves.memory)
    (realigned.requests.trans serves.requests)

theorem Serves.clear (serves : session.Serves plain) :
    ∃ reached, Session.clear session = (.ok (), reached) ∧ reached.Serves plain := by
  obtain ⟨channel, called, there⟩ := Channel.clear_apply Logged.carries session.here
  exact ⟨_, onChannel_apply called,
    .of_at there serves.enough serves.idle rfl serves.heard serves.memory serves.requests⟩

/-- An access that does not wait is served as a plain memory serves it. -/
theorem Serves.make (serves : session.Serves plain) {access : Access}
    (immediate : access.immediate = true) :
    ∃ reached, Session.make access session = ((plain.make access).1, reached) ∧
      reached.Serves (plain.make access).2 := by
  cases access with
  | read address width mask placement label =>
      by_cases aligned : Address.Aligned address
      · obtain ⟨reached, made, served⟩ := serves.readBits aligned width mask placement label
        simp only [Plain.make, if_pos aligned]
        exact ⟨reached, by rw [Session.make, Action.map_apply, made]; rfl, served⟩
      · simp only [Plain.make, if_neg aligned]
        refine ⟨session, ?_, serves⟩
        rw [Session.make, Action.map_apply, readBits_unaligned aligned]
        rfl
  | write address width mask value placement label =>
      by_cases aligned : Address.Aligned address
      · obtain ⟨reached, made, served⟩ := serves.writeBits aligned width mask value placement label
        simp only [Plain.make, if_pos aligned]
        exact ⟨reached, by rw [Session.make, silent_apply, made]; rfl, served⟩
      · simp only [Plain.make, if_neg aligned]
        refine ⟨session, ?_, serves⟩
        rw [Session.make, silent_apply, writeBits_unaligned aligned]
        rfl
  | wait field awaited timeout => cases immediate
  | resync =>
      obtain ⟨reached, made, served⟩ := serves.resync
      exact ⟨reached, by rw [Session.make, silent_apply, made]; rfl, served⟩
  | clear =>
      obtain ⟨reached, made, served⟩ := serves.clear
      exact ⟨reached, by rw [Session.make, silent_apply, made]; rfl, served⟩
  | barrier =>
      exact ⟨_, silent_apply barrier session, serves.enough, serves.idle, serves.drained,
        serves.heard, serves.memory, serves.requests⟩

theorem Serves.performAll (commands : List Command) :
    ∀ {session : Session (Logged (Timed Device))} {plain : Plain}, session.Serves plain →
      (∀ command ∈ commands, command.access.immediate) →
        ∃ reached, session.performAll commands = ((plain.performAll commands).1, reached) ∧
          reached.Serves (plain.performAll commands).2 := by
  induction commands with
  | nil =>
      intro session plain serves _
      exact ⟨session, rfl, serves⟩
  | cons command commands ih =>
      intro session plain serves immediate
      obtain ⟨next, made, served⟩ := serves.make (immediate command List.mem_cons_self)
      obtain ⟨reached, performed, done⟩ :=
        ih served fun other member => immediate other (List.mem_cons_of_mem command member)
      refine ⟨reached, ?_, done⟩
      rw [make_access] at made
      simp only [Session.performAll, made, performed, Plain.performAll]

/-- An unaligned access is not noticed by anything, not even by the link. -/
theorem make_unaligned {access : Access} (accessed : access.address? = some address)
    (unaligned : ¬ Address.Aligned address) (session : Session (Logged (Timed Device))) :
    Session.make access session = (.error (.unaligned address), session) := by
  cases access with
  | read address' width mask placement label =>
      cases accessed
      rw [Session.make, Action.map_apply, readBits_unaligned unaligned]
      rfl
  | write address' width mask value placement label =>
      cases accessed
      rw [Session.make, silent_apply, writeBits_unaligned unaligned]
      rfl
  | wait field awaited timeout => cases accessed
  | resync => cases accessed
  | clear => cases accessed
  | barrier => cases accessed

/--
A session on a device at rest gives the results of a plain memory and leaves it
in the device, with one request for each access, and leaves the device at rest.
A refused access changes nothing at all.
-/
theorem refines_plain (session : Session (Logged (Timed Device))) (commands : List Command)
    (enough : 19 ≤ session.channel.budget) (idle : session.device.inbound = [])
    (drained : session.device.outbound = []) (heard : session.device.silenced = 0)
    (immediate : ∀ command ∈ commands, command.access.immediate) :
    let (results, reached) := session.performAll commands
    let (expected, plain) :=
      Plain.performAll ⟨session.device.memory, session.device.requests⟩ commands
    results = expected ∧ reached.device.memory = plain.memory ∧
      reached.device.requests = plain.requests ∧
      reached.device.inbound = [] ∧ reached.device.outbound = [] ∧
      ∀ command address, command.access.address? = some address → ¬ Address.Aligned address →
        perform command reached = (.error (.unaligned address), reached) := by
  have first : session.Serves ⟨session.device.memory, session.device.requests⟩ :=
    ⟨enough, idle, drained, heard, rfl, rfl⟩
  obtain ⟨reached, performed, serves⟩ := Serves.performAll commands first immediate
  rw [performed]
  refine ⟨rfl, serves.memory, serves.requests, serves.idle, serves.drained, ?_⟩
  intro command address accessed unaligned
  rw [← make_access]
  exact make_unaligned accessed unaligned reached

/-- Writes and reads of every sort, one of them refused. -/
def mixed : List Command := [
  .writeBits 0x20000000#32 .word 0xffff00ff#32 0xcafe1234#32 .direct "word",
  .writeBits 0x20000000#32 .half 0xf000#32 0x5#32 .packed "half",
  .resync,
  .writeBits 0x20000000#32 .word 0x00f00a0f#32 0x2d7#32 .packed "scattered",
  .readBits 0x20000000#32 .word 0x00f00a0f#32 .packed "scattered",
  .readBits 0x20000000#32 .word 0xffffffff#32 .direct "whole",
  .readBits 0x20000002#32 .byte 0xff#32 .direct "unaligned"]

/-- The smallest budget leaves no room for two requests without a handshake between them. -/
theorem refines_plain_smallest_budget :
    let reached := (start { link := { link := {} } } { budget := 19 }).performAll mixed
    reached.1 =
        [.ok none, .ok none, .ok none, .ok none, .ok (some 0x2d7#32), .ok (some 0xcabe5207#32),
          .error (.unaligned 0x20000002#32)] ∧
      reached.2.device.requests = 5 := by
  have refined := refines_plain (start { link := { link := {} } } { budget := 19 }) mixed
    (by decide) rfl rfl rfl (by decide)
  exact ⟨refined.1.trans (by decide +kernel), refined.2.2.1.trans rfl⟩

end Session

end RegisterLink
