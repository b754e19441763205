import RegisterLink.Proofs.Access
import RegisterLink.Proofs.Cable
import RegisterLink.Proofs.Polling
import RegisterLink.Proofs.Replay

/-!
# Entries of a recording

An open recording holds what succeeded, in order, and nothing of what failed.
An access makes its entries at one point, after its exchange; only a wait makes
one before, and takes it back when it fails.  While it is open the reads that it
polls with are not entered, so between two calls no wait is ever open, and a
recording can always be finished.  Nothing here depends on the link.
-/

namespace RegisterLink

open RegisterLink.Action (Keeps)

/-- What an access enters into an open recording when it succeeds. -/
def Access.entries : Access → List Event
  | read address width _ _ label => [.read address width label]
  | write address width mask value placement label =>
      [.write address width mask (placement.placed value mask) label]
  | wait field awaited _ =>
      [.waitBegin, .waitEnd field.register.address field.mask awaited
        (field.path ++ " == " ++ Literal.binary awaited field.bits)]
  | resync => []
  | clear => []
  | barrier => [.barrier]

namespace Trace

variable {events : List Event}

/-- The entries of an access leave no wait open. -/
theorem Drafted.entries (drafted : Drafted events false) (access : Access) :
    Drafted (events ++ access.entries) false := by
  cases access with
  | read address width mask placement label =>
      exact drafted.append (Draft.takes_read address width label false)
  | write address width mask value placement label =>
      exact drafted.append (Draft.takes_write address width mask _ label false)
  | wait field awaited timeout =>
      have opened := drafted.append Draft.takes_waitBegin
      rw [Access.entries, ← List.singleton_append, ← List.append_assoc]
      exact opened.append (Draft.takes_waitEnd _ _ _ _)
  | resync => rwa [Access.entries, List.append_nil]
  | clear => rwa [Access.entries, List.append_nil]
  | barrier => exact drafted.append (Draft.takes_barrier false)

end Trace

namespace Session

variable {σ α β : Type}

/-- What is entered of a call, by its result. -/
def recorded (entries : List Event) : Except Error α → List Event
  | .ok _ => entries
  | .error _ => []

/-- The action makes these entries when it succeeds, none when it fails, and leaves no wait open. -/
def Enters (action : Action Error (Session σ) α) (entries : List Event) : Prop :=
  ∀ (session : Session σ) (events : List Event), session.trace = some ⟨events, false⟩ →
    (action session).2.trace = some ⟨events ++ recorded entries (action session).1, false⟩

theorem recorded_map (entries : List Event) (change : α → β) (result : Except Error α) :
    recorded entries (result.map change) = recorded entries result := by
  cases result <;> rfl

theorem Enters.map {action : Action Error (Session σ) α} {entries : List Event}
    (enters : Enters action entries) (change : α → β) : Enters (change <$> action) entries := by
  intro session events opened
  rw [Action.map_apply, recorded_map]
  exact enters session events opened

theorem Enters.silent {access : Action Error (Session σ) Unit} {entries : List Event}
    (enters : Enters access entries) : Enters (silent access) entries := by
  intro session events opened
  rw [silent_apply, recorded_map]
  exact enters session events opened

theorem enters_onChannel (action : Action Error (Channel σ) α) : Enters (onChannel action) [] := by
  intro session events opened
  have nothing (result : Except Error α) : recorded [] result = [] := by
    cases result <;> rfl
  rw [nothing, List.append_nil]
  exact opened

/-- There is one recording at a time, and it stays as it is. -/
theorem record_open {session : Session σ} {trace : Trace} (opened : session.trace = some trace) :
    record session = (.error .recordingOpen, session) := by
  simp only [record, Action.bind_apply, Action.get_apply, opened, Action.throw_apply]

theorem enters_record : Enters (record (σ := σ)) [] := by
  intro session events opened
  rw [record_open opened, recorded, List.append_nil]
  exact opened

theorem enters_barrier : Enters (barrier (σ := σ)) [.barrier] := by
  intro session events opened
  change session.trace.map Trace.barrier = _
  rw [opened]
  rfl

/-- Nothing that a loop does in an open wait is entered, and the wait is entered as a whole. -/
theorem enters_awaiting [Clock σ] {loop : Nat → Action Error (Session σ) Unit}
    (still : ∀ {trace : Trace}, trace.waiting = true → ∀ deadline,
      Keeps (fun session : Session σ => session.trace = some trace) (loop deadline))
    (field : Field) (awaited : Word) (timeout : Nat) :
    Enters (awaiting loop field awaited timeout) (Access.wait field awaited timeout).entries := by
  intro session events opened
  let trace : Trace := ⟨events, false⟩
  let begun : Session σ := { session with trace := some trace.beginWait }
  have begins : note Trace.beginWait session = (.ok (), begun) := by
    simp only [note, Action.update, opened, Option.map_some, begun, trace]
  have held := still (show trace.beginWait.waiting = true from rfl)
    (Clock.now begun.link + timeout) begun rfl
  rcases looped : loop (Clock.now begun.link + timeout) begun with ⟨error | done, reached⟩
  · rw [looped] at held
    rw [awaiting_apply loop field awaited timeout begins looped]
    change reached.trace.map Trace.abortWait = some ⟨events ++ [], false⟩
    rw [held, List.append_nil, Option.map_some, Trace.abortWait_beginWait rfl]
  · rw [looped] at held
    rw [awaiting_apply loop field awaited timeout begins looped]
    change reached.trace.map (fun trace : Trace => trace.endWait _ _ _ _) = _
    rw [held, Option.map_some, Trace.endWait, Trace.beginWait, Trace.push, Trace.push,
      List.append_assoc]
    rfl

section Accesses

variable [Link σ]

/-- A read changes nothing but the channel, and the trace if it succeeds. -/
theorem readBits_outcome (address : Word) (width : Width) (mask : Word) (placement : Placement)
    (label : String) (session : Session σ) :
    (∃ error channel, readBits address width mask placement label session =
      (.error error, { session with channel })) ∨
    ∃ value channel, readBits address width mask placement label session =
      (.ok value, session.entered channel (·.read address width label)) := by
  by_cases aligned : Address.Aligned address
  case neg => exact .inl ⟨_, session.channel, readBits_unaligned aligned width mask placement label⟩
  rcases called : Channel.fetch address width session.config.retries session.channel with
    ⟨error | word, reached⟩
  · exact .inl ⟨error, reached, readBits_failed aligned called mask placement label⟩
  · exact .inr ⟨_, reached, readBits_apply aligned called mask placement label⟩

theorem writeBits_outcome (address : Word) (width : Width) (mask value : Word)
    (placement : Placement) (label : String) (session : Session σ) :
    (∃ error channel, writeBits address width mask value placement label session =
      (.error error, { session with channel })) ∨
    ∃ channel, writeBits address width mask value placement label session =
      (.ok (), session.entered channel
        (·.write address width mask (placement.position value mask) label)) := by
  by_cases aligned : Address.Aligned address
  case neg =>
    exact .inl ⟨_, session.channel, writeBits_unaligned aligned width mask value placement label⟩
  rcases called : Channel.send
      (Request.write address width mask (placement.position value mask)).encode session.channel with
    ⟨error | done, reached⟩
  · exact .inl ⟨error, reached, writeBits_failed aligned called label⟩
  · exact .inr ⟨reached, writeBits_apply aligned called label⟩

theorem enters_readBits (address : Word) (width : Width) (mask : Word) (placement : Placement)
    (label : String) :
    Enters (readBits (σ := σ) address width mask placement label)
      [.read address width label] := by
  intro session events opened
  obtain ⟨error, channel, failed⟩ | ⟨value, channel, succeeded⟩ :=
    readBits_outcome address width mask placement label session
  · rw [failed, recorded, List.append_nil]
    exact opened
  · rw [succeeded, entered, opened]
    rfl

theorem enters_writeBits (address : Word) (width : Width) (mask value : Word)
    (placement : Placement) (label : String) :
    Enters (writeBits (σ := σ) address width mask value placement label)
      [.write address width mask (placement.position value mask) label] := by
  intro session events opened
  obtain ⟨error, channel, failed⟩ | ⟨channel, succeeded⟩ :=
    writeBits_outcome address width mask value placement label session
  · rw [failed, recorded, List.append_nil]
    exact opened
  · rw [succeeded, entered, opened]
    rfl

/-- A read enters nothing while a wait is open. -/
theorem waiting_readBits {trace : Trace} (waiting : trace.waiting = true) (address : Word)
    (width : Width) (mask : Word) (placement : Placement) (label : String) :
    Keeps (fun session : Session σ => session.trace = some trace)
      (readBits address width mask placement label) := by
  intro session opened
  obtain ⟨error, channel, failed⟩ | ⟨value, channel, succeeded⟩ :=
    readBits_outcome address width mask placement label session
  · rwa [failed]
  · rw [succeeded, entered, opened]
    change some (trace.read address width label) = some trace
    rw [Trace.read, if_pos waiting]

variable [Clock σ]

theorem enters_awaitField (field : Field) (awaited : Word) (timeout : Nat) :
    Enters (awaitField (σ := σ) field awaited timeout)
      (Access.wait field awaited timeout).entries :=
  enters_awaiting (fun waiting => keeps_polling (waiting_readBits waiting _ _ _ _ _) awaited)
    field awaited timeout

theorem enters_awaitWithin (reads : Nat) (field : Field) (awaited : Word) (timeout : Nat) :
    Enters (awaitWithin (σ := σ) reads field awaited timeout)
      (Access.wait field awaited timeout).entries :=
  enters_awaiting (fun waiting deadline =>
    keeps_pollWithin (waiting_readBits waiting _ _ _ _ _) awaited deadline reads)
    field awaited timeout

theorem enters_make (access : Access) : Enters (make (σ := σ) access) access.entries := by
  cases access with
  | read address width mask placement label =>
      exact (enters_readBits address width mask placement label).map some
  | write address width mask value placement label =>
      rw [Access.entries, ← Placement.position_eq]
      exact (enters_writeBits address width mask value placement label).silent
  | wait field awaited timeout => exact (enters_awaitField field awaited timeout).silent
  | resync => exact (enters_onChannel Channel.resync).silent
  | clear => exact (enters_onChannel Channel.clear).silent
  | barrier => exact enters_barrier.silent

end Accesses

/-- What can be done through an open recording. -/
inductive Use (σ : Type) where
  | perform (command : Command)
  /-- A wait that is given up after so many reads, so that none goes on for ever. -/
  | wait (reads : Nat) (field : Field) (awaited : Word) (timeout : Nat)
  /-- An attempt at a second recording. -/
  | record
  /-- Something else is done to the channel or its link. -/
  | aside (change : Channel σ → Channel σ)

/-- What a use enters into the recording when it succeeds. -/
def Use.entries : Use σ → List Event
  | perform command => command.access.entries
  | wait _ field awaited timeout => (Access.wait field awaited timeout).entries
  | record => []
  | aside _ => []

theorem drafted_recorded {events : List Event} (drafted : Trace.Drafted events false)
    (use : Use σ) (result : Except Error α) :
    Trace.Drafted (events ++ recorded use.entries result) false := by
  have nothing : Trace.Drafted (events ++ []) false := by rwa [List.append_nil]
  cases result with
  | error error => exact nothing
  | ok value =>
      cases use with
      | perform command => exact drafted.entries command.access
      | wait reads field awaited timeout => exact drafted.entries (.wait field awaited timeout)
      | record => exact nothing
      | aside change => exact nothing

variable [Link σ] [Clock σ]

def use : Use σ → Action Error (Session σ) (Option Word)
  | .perform command => perform command
  | .wait reads field awaited timeout => silent (awaitWithin reads field awaited timeout)
  | .record => silent record
  | .aside change =>
      silent (Action.update fun session => { session with channel := change session.channel })

/-- The uses of a recording in order, each with its result, and the session after them. -/
def useAll (session : Session σ) :
    List (Use σ) → List (Use σ × Except Error (Option Word)) × Session σ
  | [] => ([], session)
  | next :: uses =>
      let (result, session) := use next session
      let (turns, session) := session.useAll uses
      ((next, result) :: turns, session)

theorem enters_use (next : Use σ) : Enters (use next) next.entries := by
  cases next with
  | perform command =>
      rw [use, ← make_access]
      exact enters_make command.access
  | wait reads field awaited timeout =>
      exact (enters_awaitWithin reads field awaited timeout).silent
  | record => exact enters_record.silent
  | aside change =>
      intro session events opened
      change session.trace = some ⟨events ++ [], false⟩
      rw [List.append_nil]
      exact opened

/-- The entries of the turns that succeeded, in order. -/
def entries (turns : List (Use σ × Except Error α)) : List Event :=
  turns.flatMap fun (next, result) => recorded next.entries result

/-- Uses append their entries to what was recorded before. -/
theorem entries_useAll (uses : List (Use σ)) :
    ∀ {session : Session σ} {events : List Event}, session.trace = some ⟨events, false⟩ →
      Trace.Drafted events false →
      (session.useAll uses).2.trace = some ⟨events ++ entries (session.useAll uses).1, false⟩ ∧
        Trace.Drafted (events ++ entries (session.useAll uses).1) false := by
  induction uses with
  | nil =>
      intro session events opened drafted
      change session.trace = some ⟨events ++ [], false⟩ ∧ Trace.Drafted (events ++ []) false
      rw [List.append_nil]
      exact ⟨opened, drafted⟩
  | cons next uses ih =>
      intro session events opened drafted
      have entered := enters_use next session events opened
      have further := ih entered (drafted_recorded drafted next (use next session).1)
      rw [List.append_assoc] at further
      exact further

/--
Whatever the link does, an open recording holds the entries of the calls that
succeeded, in order, and nothing else.  No wait is open between two calls, no
second recording opens, and the recording can be finished.
-/
theorem records_successes {session recording : Session σ}
    (opens : record session = (.ok (), recording)) (uses : List (Use σ)) :
    let turns := (recording.useAll uses).1
    let reached := (recording.useAll uses).2
    reached.trace = some ⟨entries turns, false⟩ ∧
      record reached = (.error .recordingOpen, reached) ∧
      ∃ program, finish reached = (.ok program, { reached with trace := none }) := by
  have opened : recording.trace = some {} := by
    cases traced : session.trace with
    | none =>
        simp only [record, Action.bind_apply, Action.get_apply, traced, Action.update] at opens
        cases opens
        rfl
    | some trace =>
        rw [record_open traced] at opens
        cases opens
  intro turns reached
  obtain ⟨traced, drafted⟩ := entries_useAll uses opened ⟨{}, rfl, rfl⟩
  obtain ⟨program, compiled⟩ := drafted.compiles false
  refine ⟨traced, record_open traced, program, ?_⟩
  change reached.trace = some ⟨entries turns, false⟩ at traced
  change (⟨entries turns, false⟩ : Trace).compile = .ok program at compiled
  simp only [finish, Action.bind_apply, Action.get_apply, Action.update, traced,
    Option.getD_some, compiled, Action.ofExcept]

/-- A flag that the device raises by itself while it is waited for. -/
def flag : Field where
  register :=
    { peripheral := "ADC", name := "SR", address := 0x40012000#32, width := .word, reset := 0#32 }
  name := "EOC"
  mask := 0x2#32
  description := ""
  within := by decide

/-- A recording on a cable that fails in the exchanges and in the waits made through it. -/
def faulty : Session Cable :=
  start
    { device := {}
      ahead := [
        {}, {}, { cut := some 3 }, {},
        {}, {}, { delay := 1 },
        { failure := some ⟨"BrokenPipe"⟩ },
        {},
        {}, {}, { noise := [0#8, 0#8, 1#8] }, { upsets := [.poke 0x40012000#32 2#32] }, {}, {},
        {}, { failure := some ⟨"ConnectionReset"⟩ }] }
    { budget := 50 }

def faultyUses : List (Use Cable) := [
  .perform (.readField flag),
  .perform (.readField flag),
  .perform (.writeField flag 1#32),
  .perform (.writeField flag 0#32),
  .perform (.readBits 0x40012001#32 .byte 0xff#32 .direct "unaligned"),
  .wait 9 flag 1#32 20,
  .perform .barrier,
  .record,
  .wait 9 flag 0#32 20,
  .perform .resync,
  .perform (.writeBits 0x40012004#32 .word 0xb0#32 5#32 .packed "spread"),
  .perform (.reset flag.register)]

theorem records_successes_faulty :
    ∃ recording program, record faulty = (.ok (), recording) ∧
      (recording.useAll faultyUses).1.map (·.2.isOk) =
        [false, true, false, true, false, true, true, false, false, true, true, true] ∧
      (recording.useAll faultyUses).2.events? = some [
        .read 0x40012000#32 .word "ADC.SR.EOC",
        .write 0x40012000#32 .word 0x2#32 0#32 "ADC.SR.EOC = 0b0",
        .waitBegin,
        .waitEnd 0x40012000#32 0x2#32 1#32 "ADC.SR.EOC == 0b1",
        .barrier,
        .write 0x40012004#32 .word 0xb0#32 0x90#32 "spread",
        .write 0x40012000#32 .word Mask.full 0#32 "ADC.SR = 0x00000000"] ∧
      (finish (recording.useAll faultyUses).2).1 = .ok program := by
  have opens : record faulty = (.ok (), { faulty with trace := some {} }) := rfl
  obtain ⟨traced, _, program, finished⟩ := records_successes opens faultyUses
  refine ⟨_, program, opens, ?_, ?_, congrArg Prod.fst finished⟩
  · decide +kernel
  · rw [events?, traced]
    decide +kernel

end Session

end RegisterLink
