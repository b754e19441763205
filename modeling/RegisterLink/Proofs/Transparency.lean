import RegisterLink.Link
import RegisterLink.Proofs.Entries

/-!
# Recordings only watch

Whether a recording is open makes no difference to what a session does.  An
access may look at the channel and the settings, but never at the trace, so
forgetting the trace before it or after it comes to the same.  A session with a
recording therefore goes through the same channels as the one without, and once
the recording is closed the two are one.  Nothing here depends on the link.
-/

namespace RegisterLink

namespace Session

variable {σ α β : Type}

/-- The session without its recording. -/
def unrecorded (session : Session σ) : Session σ := { session with trace := none }

/-- Neither the result of the action nor its effect on the rest depends on the trace. -/
def Blind (action : Action Error (Session σ) α) : Prop :=
  ∀ session : Session σ,
    action session.unrecorded = ((action session).1, (action session).2.unrecorded)

theorem Blind.pure (value : α) : Blind (pure value : Action Error (Session σ) α) :=
  fun _ => rfl

theorem Blind.throw (error : Error) : Blind (throw error : Action Error (Session σ) α) :=
  fun _ => rfl

theorem Blind.ofExcept (result : Except Error α) :
    Blind (Action.ofExcept (σ := Session σ) result) :=
  fun _ => rfl

theorem Blind.bind {action : Action Error (Session σ) α} {rest : α → Action Error (Session σ) β}
    (first : Blind action) (after : ∀ value, Blind (rest value)) : Blind (action >>= rest) := by
  intro session
  rw [Action.bind_apply, Action.bind_apply, first session]
  rcases action session with ⟨_ | value, reached⟩
  · rfl
  · exact after value reached

/-- What is looked up in the session must be something else than the trace. -/
theorem Blind.look {rest : Session σ → Action Error (Session σ) β}
    (same : ∀ session, rest session.unrecorded = rest session)
    (after : ∀ session, Blind (rest session)) : Blind (get >>= rest) := by
  intro session
  rw [Action.bind_apply, Action.bind_apply, Action.get_apply, Action.get_apply]
  simp only [same]
  exact after session session

theorem Blind.map {action : Action Error (Session σ) α} (blind : Blind action) (change : α → β) :
    Blind (change <$> action) :=
  blind.bind fun value => .pure (change value)

theorem Blind.outcome {action : Action Error (Session σ) α} (blind : Blind action) :
    Blind (Action.outcome (δ := Error) action) := by
  intro session
  simp only [Action.outcome, blind session]
  rfl

theorem Blind.silent {access : Action Error (Session σ) Unit} (blind : Blind access) :
    Blind (silent access) :=
  blind.bind fun _ => .pure none

theorem blind_onChannel (action : Action Error (Channel σ) α) : Blind (onChannel action) :=
  fun _ => rfl

/-- An entry goes into the trace only. -/
theorem blind_note (entry : Trace → Trace) : Blind (note (σ := σ) entry) :=
  fun _ => rfl

theorem blind_aligned {access : Action Error (Session σ) α} (blind : Blind access)
    (address : Word) : Blind (aligned address access) := by
  rw [aligned]
  split
  · exact blind
  · exact .throw _

theorem blind_awaiting [Clock σ] {loop : Nat → Action Error (Session σ) Unit}
    (blind : ∀ deadline, Blind (loop deadline)) (field : Field) (awaited : Word) (timeout : Nat) :
    Blind (awaiting loop field awaited timeout) := by
  refine (blind_note _).bind fun _ => .look (fun _ => rfl) fun session => ?_
  refine (blind _).outcome.bind fun outcome => ?_
  cases outcome with
  | ok done => exact blind_note _
  | error error => exact (blind_note _).bind fun _ => .throw _

section Accesses

variable [Link σ]

theorem blind_readBits (address : Word) (width : Width) (mask : Word) (placement : Placement)
    (label : String) : Blind (readBits (σ := σ) address width mask placement label) := by
  refine blind_aligned (.look (fun _ => rfl) fun session => ?_) address
  exact (blind_onChannel _).bind fun word => (blind_note _).bind fun _ => .pure _

theorem blind_readField (field : Field) : Blind (readField (σ := σ) field) :=
  blind_readBits _ _ _ _ _

theorem blind_writeBits (address : Word) (width : Width) (mask value : Word)
    (placement : Placement) (label : String) :
    Blind (writeBits (σ := σ) address width mask value placement label) :=
  blind_aligned ((blind_onChannel _).bind fun _ => blind_note _) address

variable [Clock σ]

/-- The deadline is compared with the clock of the link, on which no trace has any influence. -/
theorem Waits.unrecorded {field : Field} {awaited : Word} {deadline : Nat}
    {session reached : Session σ} {results : List (Except Error Word)}
    {outcome : Except Error Unit}
    (waits : Waits field awaited deadline session results outcome reached) :
    Waits field awaited deadline session.unrecorded results outcome reached.unrecorded := by
  have blind {session reached : Session σ} {result : Except Error Word}
      (read : readField field session = (result, reached)) :
      readField field session.unrecorded = (result, reached.unrecorded) := by
    rw [blind_readField field session, read]
  induction waits with
  | settled read settles => exact .settled (blind read) settles
  | late read misses past => exact .late (blind read) misses past
  | again read misses early rest ih => exact .again (blind read) misses early ih

/-- A wait that comes to an end without the recording comes to it with the recording. -/
theorem Waits.of_unrecorded {field : Field} {awaited : Word} {deadline : Nat}
    {results : List (Except Error Word)} {outcome : Except Error Unit} {bare ended : Session σ}
    (waits : Waits field awaited deadline bare results outcome ended) :
    ∀ {session : Session σ}, session.unrecorded = bare →
      ∃ reached, Waits field awaited deadline session results outcome reached := by
  -- what the reads come to is the same with the recording
  have seen {session ended : Session σ} {result : Except Error Word}
      (read : readField field session.unrecorded = (result, ended)) :
      ∃ reached, readField field session = (result, reached) ∧ reached.unrecorded = ended := by
    rw [blind_readField field session] at read
    obtain ⟨same, rfl⟩ := Prod.mk.inj read
    exact ⟨_, Prod.ext same rfl, rfl⟩
  induction waits with
  | settled read settles =>
      rintro session rfl
      obtain ⟨reached, shown, _⟩ := seen read
      exact ⟨reached, .settled shown settles⟩
  | late read misses past =>
      rintro session rfl
      obtain ⟨reached, shown, rfl⟩ := seen read
      exact ⟨reached, .late shown misses past⟩
  | again read misses early rest ih =>
      rintro session rfl
      obtain ⟨between, shown, rfl⟩ := seen read
      obtain ⟨reached, further⟩ := ih rfl
      exact ⟨reached, .again shown misses early further⟩

theorem blind_polling (field : Field) (awaited : Word) (deadline : Nat) :
    Blind (polling (σ := σ) field awaited deadline) := by
  intro session
  obtain ⟨results, waits⟩ | endless := polling_cases field awaited deadline session
  · exact waits.unrecorded.polling
  · obtain ⟨results, waits⟩ | still := polling_cases field awaited deadline session.unrecorded
    · -- a loop that ends without the recording ends with it
      obtain ⟨reached, course⟩ := waits.of_unrecorded rfl
      rw [course.polling]
      exact course.unrecorded.polling
    · rw [endless, still]

theorem blind_pollWithin (field : Field) (awaited : Word) (deadline reads : Nat) :
    Blind (pollWithin (σ := σ) field awaited deadline reads) := by
  induction reads with
  | zero => exact .throw _
  | succ reads ih =>
      refine (blind_readField field).outcome.bind fun outcome => ?_
      split
      · exact .ofExcept _
      · refine .look (fun _ => rfl) fun session => ?_
        split
        · exact .throw _
        · exact ih

theorem blind_awaitWithin (reads : Nat) (field : Field) (awaited : Word) (timeout : Nat) :
    Blind (awaitWithin (σ := σ) reads field awaited timeout) :=
  blind_awaiting (fun deadline => blind_pollWithin field awaited deadline reads) field awaited
    timeout

theorem blind_make (access : Access) : Blind (make (σ := σ) access) := by
  cases access with
  | read address width mask placement label =>
      exact (blind_readBits address width mask placement label).map some
  | write address width mask value placement label =>
      exact (blind_writeBits address width mask value placement label).silent
  | wait field awaited timeout =>
      exact (blind_awaiting (blind_polling field awaited) field awaited timeout).silent
  | resync => exact (blind_onChannel Channel.resync).silent
  | clear => exact (blind_onChannel Channel.clear).silent
  | barrier => exact (blind_note Trace.barrier).silent

end Accesses

/-- Everything but opening a second recording, which fails only while there is a first. -/
def Use.Ordinary : Use σ → Prop
  | record => False
  | _ => True

instance : (next : Use σ) → Decidable next.Ordinary
  | .perform _ => isTrue trivial
  | .wait .. => isTrue trivial
  | .record => isFalse id
  | .aside _ => isTrue trivial

/-- What shows of a use outside of the session. -/
structure Sight where
  result : Except Error (Option Word)
  /-- The calls made on the link so far, with all bytes. -/
  calls : List LinkCall
  clock : Nat
  sent : Nat

theorem record_closed {session : Session σ} (closed : session.trace = none) :
    record session = (.ok (), { session with trace := some {} }) := by
  simp only [record, Action.bind_apply, Action.get_apply, closed, Action.update]

theorem finish_reached (session : Session σ) : (finish session).2 = session.unrecorded := rfl

variable [Link σ] [Clock σ]

theorem blind_use {next : Use σ} (ordinary : next.Ordinary) : Blind (use next) := by
  cases next with
  | perform command =>
      rw [use, ← make_access]
      exact blind_make command.access
  | wait reads field awaited timeout => exact (blind_awaitWithin reads field awaited timeout).silent
  | record => exact ordinary.elim
  | aside change => exact Blind.silent fun _ => rfl

/-- One use, with what shows of it. -/
def watch (session : Session (Logged σ)) (next : Use (Logged σ)) : Sight × Session (Logged σ) :=
  let (result, reached) := use next session
  (⟨result, reached.link.log, Clock.now reached.link, reached.channel.sent⟩, reached)

/-- What shows of some uses, one after the other, and the session after them. -/
def watchAll (session : Session (Logged σ)) :
    List (Use (Logged σ)) → List Sight × Session (Logged σ)
  | [] => ([], session)
  | next :: uses =>
      let (sight, session) := session.watch next
      let (sights, session) := session.watchAll uses
      (sight :: sights, session)

theorem watch_unrecorded {next : Use (Logged σ)} (ordinary : next.Ordinary)
    (session : Session (Logged σ)) :
    session.unrecorded.watch next =
      ((session.watch next).1, (session.watch next).2.unrecorded) := by
  simp only [watch, blind_use ordinary session]
  rfl

theorem watchAll_unrecorded (uses : List (Use (Logged σ))) :
    ∀ session : Session (Logged σ), (∀ next ∈ uses, next.Ordinary) →
      session.unrecorded.watchAll uses =
        ((session.watchAll uses).1, (session.watchAll uses).2.unrecorded) := by
  induction uses with
  | nil => exact fun _ _ => rfl
  | cons next uses ih =>
      intro session ordinary
      have first := watch_unrecorded (ordinary next List.mem_cons_self) session
      have rest := ih (session.watch next).2 fun use member =>
        ordinary use (List.mem_cons_of_mem next member)
      simp only [watchAll, first, rest]

/--
Whatever the link does, everything that shows of a session is the same with an
open recording and without one: each result, the calls on the link, the clock
and the count.  After the recording is finished or dropped the session is the
one that it would have been, and another recording can be opened.
-/
theorem recording_transparent {session recording : Session (Logged σ)}
    (opens : record session = (.ok (), recording)) (uses : List (Use (Logged σ)))
    (ordinary : ∀ next ∈ uses, next.Ordinary) :
    let watched := recording.watchAll uses
    let alone := session.watchAll uses
    watched.1 = alone.1 ∧ (finish watched.2).2 = alone.2 ∧ drop watched.2 = (.ok (), alone.2) ∧
      ∃ again, record alone.2 = (.ok (), again) := by
  have closed : session.trace = none := by
    cases traced : session.trace with
    | none => rfl
    | some trace =>
        rw [record_open traced] at opens
        cases opens
  have same : session = recording.unrecorded := by
    rw [record_closed closed] at opens
    cases opens
    rw [unrecorded, ← closed]
  have parallel := watchAll_unrecorded uses recording ordinary
  rw [← same] at parallel
  intro watched alone
  have together : alone = (watched.1, watched.2.unrecorded) := parallel
  rw [together]
  exact ⟨rfl, finish_reached watched.2, rfl, _, record_closed rfl⟩

/-- A session on a cable that spoils a read, stops a wait and lets another one time out. -/
def meddled : Session (Logged Cable) :=
  start
    { link := { device := {}, ahead := [
        {}, {}, { cut := some 3, delay := 2 }, {}, {}, {}, {}, {}, {},
        {}, {}, { failure := some ⟨"ConnectionReset"⟩ },
        {}, {}, { delay := 4 }, {}, {}, {}, { noise := [0#8, 0#8, 1#8], delay := 4 }, {}, {},
        {}, {}, {}, { delay := 4 }] } }
    { budget := 24, retries := 1 }

def meddledUses : List (Use (Logged Cable)) := [
  .perform (.readField flag),
  .wait 9 flag 1#32 20,
  .perform (.writeField flag 1#32),
  .wait 9 flag 0#32 6,
  .perform .barrier,
  .wait 9 flag 1#32 20,
  .perform (.readBits 0x40012001#32 .byte 0xff#32 .direct "unaligned"),
  .perform .resync]

theorem recording_transparent_meddled :
    ∃ recording, record meddled = (.ok (), recording) ∧
      (meddled.watchAll meddledUses).1.map (fun sight =>
          (sight.result.isOk, sight.calls.length, sight.clock, sight.sent)) =
        [(true, 9, 2, 0), (false, 12, 2, 10), (true, 13, 2, 21), (false, 21, 10, 0),
          (true, 21, 10, 0), (true, 24, 10, 0), (false, 24, 10, 0), (true, 26, 14, 0)] ∧
      (recording.watchAll meddledUses).2.events?.map List.length = some 5 ∧
      (recording.watchAll meddledUses).1 = (meddled.watchAll meddledUses).1 ∧
      (finish (recording.watchAll meddledUses).2).2 = (meddled.watchAll meddledUses).2 := by
  have opens : record meddled = (.ok (), { meddled with trace := some {} }) := rfl
  obtain ⟨seen, finished, _⟩ := recording_transparent opens meddledUses (by decide)
  refine ⟨_, opens, ?_, ?_, seen, finished⟩
  · decide +kernel
  · decide +kernel

end Session

end RegisterLink
