import RegisterLink.Proofs.Access
import RegisterLink.Proofs.Cable
import RegisterLink.Proofs.Polling
import RegisterLink.Proofs.Replay

/-!
# Recorded sessions

While nobody else touches the device, an open recording stays faithful to it,
whatever is asked of the session and whatever fails: an access enters the trace
exactly when it has been carried out.  So a recording can always be finished,
and its program does to the memory what the session did.
-/

namespace RegisterLink

/-- A field is where its register can be read, so cutting to the register loses none of it. -/
theorem Field.and_mask (field : Field) : field.register.width.mask &&& field.mask = field.mask := by
  apply BitVec.eq_of_getLsbD_eq
  intro k bound
  have within := congrArg (·.getLsbD k) field.within
  simp only [Register.mask, BitVec.getLsbD_and, BitVec.getLsbD_not, bound, decide_true,
    Bool.true_and, BitVec.getLsbD_zero] at within
  rw [BitVec.getLsbD_and]
  cases inside : field.register.width.mask.getLsbD k with
  | true => rfl
  | false =>
      rw [inside] at within
      simpa using within.symm

/-- A field shows its value where the scattered value agrees with the register. -/
theorem Field.scatter_shown (field : Field) {word awaited : Word}
    (shown : Mask.gather (word &&& field.register.width.mask) field.mask = awaited) :
    word &&& field.mask = Mask.scatter awaited field.mask := by
  rw [← shown, Mask.scatter_gather, BitVec.and_assoc, field.and_mask]

namespace Session

/-- What accesses that change no register may do to the link and the device. -/
structure Undisturbed (before after : Session Cable) : Prop where
  calm : after.link.Quiet
  kept : before.link.device.Kept after.link.device

variable {session : Session Cable} {address : Word}

theorem Undisturbed.refl (calm : session.link.Quiet) (idle : session.link.device.inbound = []) :
    session.Undisturbed session :=
  ⟨calm, rfl, idle⟩

theorem Undisturbed.trans {first second third : Session Cable} (before : first.Undisturbed second)
    (after : second.Undisturbed third) : first.Undisturbed third :=
  ⟨after.calm, before.kept.trans after.kept⟩

theorem at_device (calm : session.link.Quiet) :
    session.channel.At Cable.device Cable.Quiet session.channel.budget session.link.device :=
  ⟨rfl, calm, rfl⟩

/-- A session that reached a channel is at its device. -/
theorem undisturbed_of_at {channel : Channel Cable} {budget : Nat} {held : Device}
    (there : channel.At Cable.device Cable.Quiet budget held)
    (kept : session.link.device.Kept held) (trace : Option Trace) :
    session.Undisturbed { session with channel, trace } := by
  obtain rfl := there.held
  exact ⟨there.calm, kept⟩

/-- A read that succeeds gives what the device holds and is entered; no other is. -/
theorem readBits_kept (calm : session.link.Quiet) (idle : session.link.device.inbound = [])
    (address : Word) (width : Width) (mask : Word) (placement : Placement) (label : String) :
    ∃ result reached, readBits address width mask placement label session = (result, reached) ∧
      session.Undisturbed reached ∧
      ((Address.Aligned address ∧
          result = .ok (placement.extract (session.link.device.peek address &&& width.mask) mask) ∧
          reached.trace = session.trace.map (·.read address width label)) ∨
        ((∃ error, result = .error error) ∧ reached.trace = session.trace)) := by
  by_cases aligned : Address.Aligned address
  · obtain ⟨result, channel, held, called, there, kept, right⟩ :=
      Channel.fetch_kept Cable.carries address width session.config.retries
        (at_device calm) idle
    cases result with
    | ok word =>
        refine ⟨_, _, readBits_apply aligned called mask placement label,
          undisturbed_of_at there kept _, .inl ⟨aligned, ?_, rfl⟩⟩
        rw [right word rfl]
    | error error =>
        exact ⟨_, _, readBits_failed aligned called mask placement label,
          undisturbed_of_at there kept _, .inr ⟨⟨error, rfl⟩, rfl⟩⟩
  · exact ⟨_, _, readBits_unaligned aligned width mask placement label, .refl calm idle,
      .inr ⟨⟨_, rfl⟩, rfl⟩⟩

/-- The field can be read, and has this value in the device. -/
def Has (session : Session Cable) (field : Field) (value : Word) : Prop :=
  Address.Aligned field.register.address ∧
    Mask.gather (session.link.device.peek field.register.address &&& field.register.width.mask)
      field.mask = value

section Waiting

variable {trace : Trace} {field : Field} {awaited : Word} {deadline : Nat} {reached : Session Cable}
  {outcome : Except Error Unit}

/-- A trace with an open wait takes no reads. -/
theorem readField_kept (opened : trace.waiting = true) {result : Except Error Word}
    (read : readField field session = (result, reached)) (calm : session.link.Quiet)
    (idle : session.link.device.inbound = []) (traced : session.trace = some trace) :
    session.Undisturbed reached ∧ reached.trace = some trace ∧
      ∀ value, result = .ok value → session.Has field value := by
  obtain ⟨outcome, next, called, undisturbed, entered⟩ :=
    readBits_kept calm idle field.register.address field.register.width field.mask .packed
      field.path
  obtain ⟨rfl, rfl⟩ := Prod.mk.inj (called.symm.trans read)
  refine ⟨undisturbed, ?_, ?_⟩
  · rcases entered with ⟨_, _, entered⟩ | ⟨_, entered⟩
    · rw [entered, traced, Option.map_some, Trace.read, if_pos opened]
    · rw [entered, traced]
  · rintro value rfl
    rcases entered with ⟨aligned, shown, _⟩ | ⟨⟨error, failed⟩, _⟩
    · exact ⟨aligned, (Except.ok.inj shown).symm⟩
    · cases failed

/-- A wait makes reads only, none of which is entered while the wait is open. -/
theorem Waits.kept (opened : trace.waiting = true) {results : List (Except Error Word)}
    (waits : Waits field awaited deadline session results outcome reached)
    (calm : session.link.Quiet) (idle : session.link.device.inbound = [])
    (traced : session.trace = some trace) :
    session.Undisturbed reached ∧ reached.trace = some trace ∧
      (outcome = .ok () → session.Has field awaited) := by
  induction waits with
  | settled read settles =>
      obtain ⟨undisturbed, still, shown⟩ := readField_kept opened read calm idle traced
      refine ⟨undisturbed, still, ?_⟩
      rintro rfl
      cases settles
      exact shown awaited rfl
  | late read misses past =>
      obtain ⟨undisturbed, still, _⟩ := readField_kept opened read calm idle traced
      exact ⟨undisturbed, still, fun done => nomatch done⟩
  | again read misses early rest ih =>
      obtain ⟨undisturbed, still, _⟩ := readField_kept opened read calm idle traced
      obtain ⟨later, held, shown⟩ := ih undisturbed.calm undisturbed.kept.idle still
      refine ⟨undisturbed.trans later, held, fun done => ?_⟩
      rw [Has, ← undisturbed.kept.peek]
      exact shown done

theorem polling_kept (opened : trace.waiting = true)
    (polled : polling field awaited deadline session = (outcome, reached))
    (calm : session.link.Quiet) (idle : session.link.device.inbound = [])
    (traced : session.trace = some trace) :
    session.Undisturbed reached ∧ reached.trace = some trace ∧
      (outcome = .ok () → session.Has field awaited) := by
  obtain ⟨results, waits⟩ | endless := polling_cases field awaited deadline session
  · rw [polled] at waits
    exact waits.kept opened calm idle traced
  · obtain ⟨rfl, rfl⟩ := Prod.mk.inj (endless.symm.trans polled)
    exact ⟨.refl calm idle, traced, fun done => nomatch done⟩

end Waiting

/-- An open recording that is faithful to the device, which nobody else touches. -/
structure Records (origin : ByteMemory) (session : Session Cable) : Prop where
  calm : session.link.Quiet
  idle : session.link.device.inbound = []
  faithful : ∃ trace, session.trace = some trace ∧ trace.Faithful origin session.link.device.memory

variable {origin : ByteMemory}

theorem records_of_at {budget : Nat} {held : Device}
    (there : session.channel.At Cable.device Cable.Quiet budget held) (idle : held.inbound = [])
    {trace : Trace} (traced : session.trace = some trace)
    (faithful : trace.Faithful origin held.memory) : session.Records origin := by
  obtain rfl := there.held
  exact ⟨there.calm, idle, trace, traced, faithful⟩

/-- A session that goes on undisturbed records as long as its trace stays faithful. -/
theorem Undisturbed.records {reached : Session Cable} (undisturbed : session.Undisturbed reached)
    {trace : Trace} (traced : reached.trace = some trace)
    (faithful : trace.Faithful origin session.link.device.memory) : reached.Records origin where
  calm := undisturbed.calm
  idle := undisturbed.kept.idle
  faithful := ⟨trace, traced, undisturbed.kept.memory ▸ faithful⟩

theorem Records.readBits (records : session.Records origin) (address : Word) (width : Width)
    (mask : Word) (placement : Placement) (label : String) :
    (Session.readBits address width mask placement label session).2.Records origin := by
  obtain ⟨trace, traced, faithful⟩ := records.faithful
  obtain ⟨result, reached, called, undisturbed, entered⟩ :=
    readBits_kept records.calm records.idle address width mask placement label
  rw [called]
  rcases entered with ⟨_, _, entered⟩ | ⟨_, entered⟩
  · rw [traced] at entered
    exact undisturbed.records entered (faithful.read address width label)
  · exact undisturbed.records (entered.trans traced) faithful

/-- A write is entered when it reached the device, which has carried it out by then. -/
theorem Records.writeBits (records : session.Records origin) (address : Word) (width : Width)
    (mask value : Word) (placement : Placement) (label : String) :
    (Session.writeBits address width mask value placement label session).2.Records origin := by
  by_cases aligned : Address.Aligned address
  · let request := Request.write address width mask (placement.position value mask)
    by_cases fits : (Envelope.frame request.encode).length < session.channel.budget
    · obtain ⟨trace, traced, faithful⟩ := records.faithful
      obtain ⟨channel, between, called, realigned, there⟩ :=
        Channel.send_apply Cable.carries (at_device records.calm) records.idle request fits
      -- a handshake on the way leaves memory alone, so the write meets the recorded word
      rw [Device.feed_write realigned.idle] at there
      rw [writeBits_apply aligned called, entered, traced]
      refine records_of_at there realigned.idle rfl ?_
      rw [Device.memory_write, realigned.memory]
      exact faithful.write aligned width mask (placement.position value mask) label
    · have refused := Channel.send_oversized request (Nat.le_of_not_lt fits)
      rw [writeBits_failed aligned refused]
      exact records
  · rw [writeBits_unaligned aligned]
    exact records

theorem Records.awaitField (records : session.Records origin) (field : Field) (awaited : Word)
    (timeout : Nat) : (Session.awaitField field awaited timeout session).2.Records origin := by
  obtain ⟨trace, traced, faithful⟩ := records.faithful
  let begun : Session Cable := { session with trace := some trace.beginWait }
  have begins : note Trace.beginWait session = (.ok (), begun) := by
    simp only [note, Action.update, traced, Option.map_some, begun]
  rcases polled : polling field awaited (Clock.now begun.link + timeout) begun with
    ⟨outcome, reached⟩
  obtain ⟨undisturbed, still, right⟩ :=
    polling_kept (show trace.beginWait.waiting = true from rfl) polled records.calm records.idle rfl
  rw [Session.awaitField,
    awaiting_apply (polling field awaited) field awaited timeout begins polled]
  cases outcome with
  | ok done =>
      obtain ⟨aligned, shown⟩ := right rfl
      have ended := faithful.wait aligned (field.scatter_shown shown)
        (field.path ++ " == " ++ Literal.binary awaited field.bits)
      exact ⟨undisturbed.calm, undisturbed.kept.idle, _, congrArg (Option.map _) still,
        undisturbed.kept.memory ▸ ended⟩
  | error error =>
      refine ⟨undisturbed.calm, undisturbed.kept.idle, _, congrArg (Option.map _) still, ?_⟩
      -- no access was entered since the opening, so taking it back restores the trace
      rw [closing, Trace.abortWait_beginWait faithful.closed]
      exact undisturbed.kept.memory ▸ faithful

theorem Records.resync (records : session.Records origin) :
    (Session.resync session).2.Records origin := by
  obtain ⟨trace, traced, faithful⟩ := records.faithful
  obtain ⟨channel, called, there⟩ :=
    Channel.resync_apply Cable.carries (at_device records.calm) records.idle
  have realigned := Device.realigned_mark records.idle
  rw [Session.resync, onChannel_apply called]
  exact records_of_at there realigned.idle traced (realigned.memory ▸ faithful)

theorem Records.clear (records : session.Records origin) :
    (Session.clear session).2.Records origin := by
  obtain ⟨trace, traced, faithful⟩ := records.faithful
  obtain ⟨channel, called, there⟩ := Channel.clear_apply Cable.carries (at_device records.calm)
  rw [Session.clear, onChannel_apply called]
  exact records_of_at there records.idle traced faithful

theorem Records.barrier (records : session.Records origin) :
    (Session.barrier session).2.Records origin := by
  obtain ⟨trace, traced, faithful⟩ := records.faithful
  exact ⟨records.calm, records.idle, trace.barrier, congrArg (Option.map Trace.barrier) traced,
    faithful.barrier⟩

/-- Whatever access is made, the recording stays faithful. -/
theorem Records.make (records : session.Records origin) (access : Access) :
    (Session.make access session).2.Records origin := by
  cases access with
  | read address width mask placement label =>
      rw [Session.make, Action.map_apply]
      exact records.readBits address width mask placement label
  | write address width mask value placement label =>
      rw [Session.make, silent_apply]
      exact records.writeBits address width mask value placement label
  | wait field awaited timeout =>
      rw [Session.make, silent_apply]
      exact records.awaitField field awaited timeout
  | resync =>
      rw [Session.make, silent_apply]
      exact records.resync
  | clear =>
      rw [Session.make, silent_apply]
      exact records.clear
  | barrier =>
      rw [Session.make, silent_apply]
      exact records.barrier

theorem Records.performAll (commands : List Command) :
    ∀ {session : Session Cable}, session.Records origin →
      (session.performAll commands).2.Records origin := by
  induction commands with
  | nil => exact id
  | cons command commands ih =>
      intro session records
      have made := records.make command.access
      rw [make_access] at made
      exact ih made

/--
A recording of any accesses, failed ones among them, on a device that nobody
else touches can be finished.  Its program, run on the memory that the recording
began with, leaves what the device holds at every address, and every wait in it
ends at its first look.
-/
theorem finish_replays (session : Session Cable) (closed : session.trace = none)
    (quiet : session.link.Quiet) (idle : session.link.device.inbound = [])
    (commands : List Command) :
    ∃ opened program machine after,
      record session = (.ok (), opened) ∧
      finish (opened.performAll commands).2 = (.ok program, after) ∧
      program.run (.start (.ofWords session.link.device.memory)) = some machine ∧
      (∀ address, Address.Aligned address →
        machine.world.memory.load address .word = after.link.device.peek address) ∧
      ∀ observation ∈ machine.world.seen, observation.Satisfied := by
  have opened : record session = (.ok (), { session with trace := some {} }) := by
    simp only [record, Action.bind_apply, Action.get_apply, closed, Action.update]
  have records : ({ session with trace := some {} } : Session Cable).Records
      (.ofWords session.link.device.memory) :=
    ⟨quiet, idle, {}, rfl, Trace.faithful_empty _⟩
  obtain ⟨trace, traced, faithful⟩ := (records.performAll commands).faithful
  obtain ⟨program, machine, compiled, ran, shows⟩ := faithful.compile
  let done : Session Cable := (performAll { session with trace := some {} } commands).2
  have finished : finish done = (.ok program, { done with trace := none }) := by
    simp only [finish, Action.bind_apply, Action.get_apply, Action.update, done, traced,
      Option.getD_some, compiled, Action.ofExcept]
  refine ⟨_, program, machine, _, opened, finished, ran, ?_, shows.satisfied⟩
  intro address aligned
  rw [shows.memory, ByteMemory.load_ofWords _ aligned, Width.and_mask_word]
  rfl

/-- A session whose first answer is dropped and whose calls take their time. -/
def hesitant : Session Cable :=
  start
    { device := { memory := fun _ => 0x00000350#32, outbound := [0x4f#8], silenced := 1 }
      ahead := List.replicate 40 { delay := 3 } }
    { budget := 24, retries := 1 }

/-- A status field beside the bits that the writes below change. -/
def status : Field where
  register :=
    { peripheral := "UART", name := "STATUS", address := 0x40000010#32, width := .half
      reset := 0#32 }
  name := "STATE"
  mask := 0x0f40#32
  description := ""
  within := by decide

theorem finish_replays_hesitant :
    ∃ opened program machine after,
      record hesitant = (.ok (), opened) ∧
      finish (opened.performAll [
          .readField status,
          .writeBits 0x40000010#32 .word 0xff0000ff#32 0x12ff#32 .packed "ends",
          .writeBits 0x40000011#32 .byte 0xff#32 0x1#32 .direct "unaligned",
          .awaitField status 0x7#32 50,
          .awaitField status 0x8#32 6,
          .writeField status 0x2#32]).2 = (.ok program, after) ∧
      program.run (.start (.ofWords fun _ => 0x00000350#32)) = some machine ∧
      (∀ address, Address.Aligned address →
        machine.world.memory.load address .word = after.link.device.peek address) ∧
      ∀ observation ∈ machine.world.seen, observation.Satisfied :=
  finish_replays hesitant rfl
    (fun _ member => List.eq_of_mem_replicate member ▸ ⟨rfl, rfl, rfl, rfl⟩) rfl _

end Session

end RegisterLink
