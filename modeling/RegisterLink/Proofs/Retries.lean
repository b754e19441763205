import RegisterLink.Proofs.Access
import RegisterLink.Proofs.Budget
import RegisterLink.Proofs.Cable
import RegisterLink.Proofs.Envelope

/-!
# Retries of a read

The calls of a read split into attempts, each an exchange of its own, with one
handshake between any two of them.  A call of the link that fails is the last
one, and the read fails with it; any other failure of an attempt costs a retry,
and comes out only when no retry is left.
-/

namespace RegisterLink

namespace LinkCall

/-- What the call hands to the link. -/
def sent? : LinkCall → Option (List Byte)
  | send data _ => some data
  | _ => none

/-- What the call failed with. -/
def failure? : LinkCall → Option LinkFailure
  | send _ (.error failure) => some failure
  | receive _ _ (.error failure) => some failure
  | discard (.error failure) => some failure
  | _ => none

end LinkCall

namespace Channel

variable {σ α β : Type}

/-- Every call succeeded. -/
def Smooth (made : List LinkCall) : Prop := ∀ call ∈ made, call.failure? = none

/-- A failure of the link is what comes of some calls exactly when the last of them failed so. -/
inductive Halts : List LinkCall → Except Error α → Prop
  | smooth {made : List LinkCall} {result : Except Error α} (smooth : Smooth made)
      (other : ∀ failure, result ≠ .error (.link failure)) : Halts made result
  | failed {made : List LinkCall} {call : LinkCall} {failure : LinkFailure} (smooth : Smooth made)
      (failed : call.failure? = some failure) : Halts (made ++ [call]) (.error (.link failure))

/-- One attempt at a read: the calls that it made, and what came of them. -/
structure Attempt where
  made : List LinkCall
  result : Except Error Word

/-- The attempt came to nothing, though the link did not fail. -/
def Attempt.Failed (attempt : Attempt) : Prop :=
  ∃ error, attempt.result = .error error ∧ ∀ failure, error ≠ .link failure

/-- What one attempt does on the link. -/
structure Attempt.Exchanges (budget timeout : Nat) (address : Word) (width : Width)
    (attempt : Attempt) : Prop where
  /-- It is one exchange, with what came of its calls for its result. -/
  exchange : ∃ sent after,
    Loads budget timeout sent address width attempt.made attempt.result after
  /-- The input is dropped before anything is handed over. -/
  cleared : ∃ outcome rest, attempt.made = .discard outcome :: rest
  /-- The request is handed over at most once. -/
  once : (attempt.made.filterMap LinkCall.sent?).count
    (Envelope.frame (Request.read address width).encode) ≤ 1

/-- An attempt that was followed by another, and what the handshake between them heard. -/
structure Retry where
  attempt : Attempt
  answer : List Byte

/-- The calls of the attempt and of its handshake. -/
def Retry.made (timeout : Nat) (retry : Retry) : List LinkCall :=
  retry.attempt.made ++
    [.send Handshake.marker (.ok ()),
      .receive Handshake.acknowledgement.length timeout (.ok retry.answer)]

/-- How a read with so many retries goes, as attempts in order with a handshake after each. -/
structure Course (budget timeout : Nat) (address : Word) (width : Width) (retries : Nat)
    (made : List LinkCall) (result : Except Error Word) (earlier : List Retry) (last : Attempt)
    (stop : List LinkCall) : Prop where
  calls : made = earlier.flatMap (Retry.made timeout) ++ (last.made ++ stop)
  few : earlier.length ≤ retries
  exchanges : ∀ attempt ∈ earlier.map Retry.attempt ++ [last],
    attempt.Exchanges budget timeout address width
  failed : ∀ retry ∈ earlier, retry.attempt.Failed
  /-- Nothing follows the last attempt, or a handshake in which the link fails. -/
  ending :
    (stop = [] ∧ result = last.result ∧ (last.Failed → earlier.length = retries)) ∨
    ∃ failure, Handshakes timeout stop (.error failure) ∧ result = .error (.link failure) ∧
      last.Failed ∧ earlier.length < retries

section Grammar

variable {budget timeout sent after : Nat} {made first second : List LinkCall}

theorem smooth_nil : Smooth [] := fun _ member => nomatch member

theorem Smooth.append (before : Smooth first) (later : Smooth second) :
    Smooth (first ++ second) := by
  intro call member
  rcases List.mem_append.mp member with member | member
  · exact before call member
  · exact later call member

theorem smooth_singleton {call : LinkCall} (succeeded : call.failure? = none) : Smooth [call] := by
  intro other member
  rwa [List.mem_singleton.mp member]

theorem Halts.preceded {result : Except Error α} (halts : Halts second result)
    (before : Smooth first) : Halts (first ++ second) result := by
  cases halts with
  | smooth smooth other => exact .smooth (before.append smooth) other
  | failed smooth failed =>
      rw [← List.append_assoc]
      exact .failed (before.append smooth) failed

/-- A single call halts with what it failed with. -/
theorem halts_failed {call : LinkCall} {failure : LinkFailure}
    (failed : call.failure? = some failure) :
    Halts [call] (.error (.link failure) : Except Error α) :=
  .failed smooth_nil failed

theorem Halts.smooth_of_ne {result : Except Error α} (halts : Halts made result)
    (other : ∀ failure, result ≠ .error (.link failure)) : Smooth made := by
  cases halts with
  | smooth smooth other => exact smooth
  | failed smooth failed => exact absurd rfl (other _)

theorem Halts.map {result : Except Error α} (halts : Halts made result) (change : α → β) :
    Halts made (result.map change) := by
  cases halts with
  | smooth smooth other =>
      refine .smooth smooth fun failure same => ?_
      cases result with
      | error error => exact other failure (congrArg Except.error (Except.error.inj same))
      | ok value => cases same
  | failed smooth failed => exact .failed smooth failed

theorem halts_send (data : List Byte) (outcome : Except LinkFailure Unit) :
    Halts [.send data outcome] (outcome.mapError Error.link) := by
  cases outcome with
  | error failure => exact halts_failed rfl
  | ok done => exact .smooth (smooth_singleton rfl) fun _ same => nomatch same

theorem Handshakes.halts {outcome : Except LinkFailure (List Byte)}
    (handshake : Handshakes timeout made outcome) : Halts made (tolerated outcome) := by
  cases handshake with
  | unsent failure => exact halts_failed rfl
  | unheard failure => exact (halts_failed rfl).preceded (smooth_singleton rfl)
  | heard answer =>
      exact .smooth ((smooth_singleton rfl).append (smooth_singleton rfl)) fun _ same =>
        nomatch same

theorem Sends.halts {content : List Byte} {result : Except Error Unit}
    (sends : Sends budget timeout sent content made result after) : Halts made result := by
  cases sends with
  | refused refused => exact .smooth smooth_nil fun _ same => nomatch same
  | posted fits room outcome => exact halts_send _ outcome
  | stopped fits spent handshake => exact handshake.halts
  | realigned fits spent handshake outcome =>
      exact (halts_send _ outcome).preceded
        (handshake.halts.smooth_of_ne fun _ same => nomatch same)

/-- What is wrong with received bytes is never a failure of the link. -/
theorem contents_ne_link (size : Nat) (frame : List Byte) (failure : LinkFailure) :
    Envelope.contents size frame ≠ .error (.link failure) := by
  intro failed
  rcases Envelope.contents_cases size frame with
    ⟨_, opened⟩ | ⟨_, opened⟩ | ⟨_, opened⟩ | ⟨_, opened⟩ <;> cases failed.symm.trans opened

theorem Receives.halts {size : Nat} {result : Except Error (List Byte)}
    (receives : Receives size timeout sent made result after) : Halts made result := by
  cases receives with
  | failed failure => exact halts_failed rfl
  | accepted opened => exact .smooth (smooth_singleton rfl) fun _ same => nomatch same
  | @rejected frame error closed whole =>
      refine .smooth (smooth_singleton rfl) fun failure same => ?_
      exact contents_ne_link size frame failure (closed.trans same)
  | cut closed outcome =>
      rw [← List.singleton_append]
      refine Halts.preceded ?_ (smooth_singleton rfl)
      cases outcome with
      | error failure => exact halts_failed rfl
      | ok done => exact .smooth (smooth_singleton rfl) fun _ same => nomatch same

variable {address : Word} {width : Width} {result : Except Error Word}

theorem Loads.halts (loads : Loads budget timeout sent address width made result after) :
    Halts made result := by
  cases loads with
  | uncleared failure => exact halts_failed rfl
  | unsent sending =>
      rw [← List.singleton_append]
      exact (sending.halts.map fun _ => 0#32).preceded (smooth_singleton rfl)
  | asked sending receiving =>
      rw [← List.singleton_append]
      have sent := sending.halts.smooth_of_ne fun _ same => nomatch same
      exact ((receiving.halts.map width.ofBytes).preceded sent).preceded (smooth_singleton rfl)

theorem Handshakes.sent? {outcome : Except LinkFailure (List Byte)}
    (handshake : Handshakes timeout made outcome) :
    made.filterMap LinkCall.sent? = [Handshake.marker] := by
  cases handshake <;> rfl

theorem Receives.sent? {size : Nat} {result : Except Error (List Byte)}
    (receives : Receives size timeout sent made result after) :
    made.filterMap LinkCall.sent? = [] := by
  cases receives <;> rfl

/-- A content is handed over once at most; the marker is no frame. -/
theorem Sends.once {content : List Byte} {result : Except Error Unit}
    (sends : Sends budget timeout sent content made result after) :
    (made.filterMap LinkCall.sent?).count (Envelope.frame content) ≤ 1 := by
  have marked : [Handshake.marker].count (Envelope.frame content) = 0 :=
    List.count_eq_zero.mpr fun member => frame_ne_marker content (List.mem_singleton.mp member)
  cases sends with
  | refused refused => exact Nat.zero_le 1
  | posted fits room outcome => exact List.count_le_length
  | stopped fits spent handshake =>
      rw [handshake.sent?, marked]
      exact Nat.zero_le 1
  | realigned fits spent handshake outcome =>
      rw [List.filterMap_append, handshake.sent?, List.count_append, marked, Nat.zero_add]
      exact List.count_le_length

theorem Loads.exchanges (loads : Loads budget timeout sent address width made result after) :
    Attempt.Exchanges budget timeout address width ⟨made, result⟩ where
  exchange := ⟨sent, after, loads⟩
  cleared := by cases loads <;> exact ⟨_, _, rfl⟩
  once := by
    cases loads with
    | uncleared failure => exact Nat.zero_le 1
    | unsent sending => exact sending.once
    | asked sending receiving =>
        simp only [List.filterMap_cons, LinkCall.sent?, List.filterMap_append, receiving.sent?,
          List.append_nil]
        exact sending.once

end Grammar

section Courses

variable {budget timeout retries : Nat} {address : Word} {width : Width}
  {made more : List LinkCall} {result : Except Error Word} {earlier : List Retry} {last : Attempt}
  {stop : List LinkCall}

/-- An attempt that nothing follows. -/
theorem course_last {attempt : Attempt}
    (exchanges : attempt.Exchanges budget timeout address width)
    (exhausted : attempt.Failed → retries = 0) :
    Course budget timeout address width retries attempt.made attempt.result [] attempt [] where
  calls := by rw [List.flatMap_nil, List.nil_append, List.append_nil]
  few := Nat.zero_le retries
  exchanges := by
    intro other member
    rwa [List.mem_singleton.mp member]
  failed := fun _ member => nomatch member
  ending := .inl ⟨rfl, rfl, fun failed => (exhausted failed).symm⟩

/-- An attempt that failed, and the link with the handshake after it. -/
theorem course_stopped {attempt : Attempt} {failure : LinkFailure}
    (exchanges : attempt.Exchanges budget timeout address width) (failed : attempt.Failed)
    (handshake : Handshakes timeout stop (.error failure)) :
    Course budget timeout address width (retries + 1) (attempt.made ++ stop)
      (.error (.link failure)) [] attempt stop where
  calls := by rw [List.flatMap_nil, List.nil_append]
  few := Nat.zero_le _
  exchanges := by
    intro other member
    rwa [List.mem_singleton.mp member]
  failed := fun _ member => nomatch member
  ending := .inr ⟨failure, handshake, rfl, failed, Nat.succ_pos retries⟩

/-- A failed attempt and its handshake in front of a read with one retry less. -/
theorem Course.retry (retry : Retry)
    (course : Course budget timeout address width retries more result earlier last stop)
    (exchanges : retry.attempt.Exchanges budget timeout address width)
    (failed : retry.attempt.Failed) :
    Course budget timeout address width (retries + 1) (retry.made timeout ++ more) result
      (retry :: earlier) last stop where
  calls := by rw [course.calls, List.flatMap_cons, List.append_assoc]
  few := Nat.succ_le_succ course.few
  exchanges := by
    intro attempt member
    rcases List.mem_cons.mp member with rfl | member
    · exact exchanges
    · exact course.exchanges attempt member
  failed := by
    intro other member
    rcases List.mem_cons.mp member with rfl | member
    · exact failed
    · exact course.failed other member
  ending := by
    rcases course.ending with ⟨alone, same, exhausted⟩ | ⟨failure, handshake, same, tried, left⟩
    · exact .inl ⟨alone, same, fun failed => congrArg Nat.succ (exhausted failed)⟩
    · exact .inr ⟨failure, handshake, same, tried, Nat.succ_lt_succ left⟩

theorem Fetches.course {sent after : Nat}
    (fetches : Fetches budget timeout address width retries sent made result after) :
    ∃ earlier last stop,
      Course budget timeout address width retries made result earlier last stop := by
  induction fetches with
  | last loading => exact ⟨_, _, _, course_last loading.exchanges fun _ => rfl⟩
  | answered loading =>
      refine ⟨_, _, _, course_last loading.exchanges ?_⟩
      rintro ⟨error, failed, _⟩
      cases failed
  | stopped loading =>
      refine ⟨_, _, _, course_last loading.exchanges ?_⟩
      rintro ⟨error, failed, passing⟩
      exact absurd (Except.error.inj failed).symm (passing _)
  | unrealigned loading passing handshake =>
      exact ⟨_, _, _, course_stopped loading.exchanges ⟨_, rfl, passing⟩ handshake⟩
  | @again _ _ _ _ made attempt _ error answer _ loading passing handshake rest ih =>
      obtain ⟨earlier, last, stop, course⟩ := ih
      let retry : Retry := ⟨⟨made, .error error⟩, answer⟩
      refine ⟨retry :: earlier, last, stop, ?_⟩
      have tried := course.retry retry loading.exchanges ⟨error, rfl, passing⟩
      cases handshake with
      | heard answer =>
        rw [← List.append_assoc]
        exact tried

theorem Fetches.halts {sent after : Nat}
    (fetches : Fetches budget timeout address width retries sent made result after) :
    Halts made result := by
  have smooth {sent after : Nat} {made : List LinkCall} {error : Error}
      (loading : Loads budget timeout sent address width made (.error error) after)
      (passing : ∀ failure, error ≠ .link failure) : Smooth made :=
    loading.halts.smooth_of_ne fun failure same => passing failure (Except.error.inj same)
  induction fetches with
  | last loading => exact loading.halts
  | answered loading => exact loading.halts
  | stopped loading => exact loading.halts
  | unrealigned loading passing handshake =>
      exact (handshake.halts.map fun _ => 0#32).preceded (smooth loading passing)
  | again loading passing handshake rest ih =>
      have realigned := handshake.halts.smooth_of_ne fun _ same => nomatch same
      exact (ih.preceded realigned).preceded (smooth loading passing)

/-- An error that is not of the link is that of the last attempt that was allowed. -/
theorem Course.exhausted {error : Error}
    (course : Course budget timeout address width retries made (.error error) earlier last stop)
    (passing : ∀ failure, error ≠ .link failure) :
    earlier.length = retries ∧ stop = [] ∧ last.result = .error error := by
  rcases course.ending with ⟨alone, same, exhausted⟩ | ⟨failure, _, same, _⟩
  · exact ⟨exhausted ⟨error, same.symm, passing⟩, alone, same.symm⟩
  · exact absurd (Except.error.inj same) (passing failure)

end Courses

end Channel

namespace Session

variable {σ : Type} [Link σ]

/--
Whatever the link does, a read makes one attempt and at most as many more as it
has retries, with one handshake between any two; each attempt drops the input
before it hands its request over, once at most.  The first call of the link that
fails is the last one and the read fails with it.  Any other error is that of
the last attempt, after all retries, and no error changes the recording.
-/
theorem readBits_retries (session : Session (Logged σ)) {address : Word}
    (aligned : Address.Aligned address) (width : Width) (mask : Word) (placement : Placement)
    (label : String) :
    let run := readBits address width mask placement label session
    ∃ made result earlier last stop,
      run.2.link.log = session.link.log ++ made ∧
      run.1 = result.map (placement.extract · mask) ∧
      Channel.Course session.channel.budget session.channel.timeout address width
        session.config.retries made result earlier last stop ∧
      Channel.Halts made run.1 ∧
      (∀ error, run.1 = .error error → (∀ failure, error ≠ .link failure) →
        earlier.length + 1 = session.config.retries + 1 ∧ stop = [] ∧
          (∀ retry ∈ earlier, retry.attempt.Failed) ∧ last.result = .error error) ∧
      ∀ error, run.1 = .error error → run.2.trace = session.trace := by
  intro run
  obtain ⟨made, result, reached, fetching, goes⟩ :=
    Channel.goes_fetch address width session.config.retries session.channel
  obtain ⟨earlier, last, stop, course⟩ := fetching.course
  refine ⟨made, result, earlier, last, stop, ?_⟩
  cases result with
  | error error =>
      have failed : run = (.error error, { session with channel := reached }) :=
        readBits_failed aligned goes.run mask placement label
      rw [failed]
      refine ⟨goes.log, rfl, course, fetching.halts, fun other same passing => ?_, fun _ _ => rfl⟩
      obtain rfl := Except.error.inj same
      obtain ⟨all, alone, ended⟩ := course.exhausted passing
      exact ⟨congrArg Nat.succ all, alone, course.failed, ended⟩
  | ok word =>
      have succeeded : run = (.ok (placement.extract word mask),
          session.entered reached (·.read address width label)) :=
        readBits_apply aligned goes.run mask placement label
      rw [succeeded]
      refine ⟨goes.log, rfl, course, fetching.halts.map (placement.extract · mask), ?_, ?_⟩
      · intro error same
        cases same
      · intro error same
        cases same

/--
A session whose read is answered with too few bytes, then with a wrong one, then
not at all, and whose handshakes are answered wrongly and not at all.
-/
def harried : Session (Logged Cable) where
  channel := .start
    { link := { device := {}, ahead := [
        {}, {}, { cut := some 3 }, {},
        {}, { noise := [0x01#8] },
        {}, {}, { noise := [0#8, 0#8, 0x01#8] },
        {}, { cut := some 0 },
        {}, { upsets := [.silence 1] }, {}] } }
    { retries := 2 }
  config := { retries := 2 }
  trace := some {}

theorem readBits_retries_harried :
    let run := readBits 0x40012000#32 .word Mask.full .direct "ADC.SR" harried
    Address.Aligned 0x40012000#32 ∧ run.1 = .error .timeout ∧ run.2.link.log.length = 14 ∧
      run.2.trace = some {} ∧
      ∃ earlier : List Channel.Retry, ∃ last : Channel.Attempt,
        run.2.link.log = earlier.flatMap (Channel.Retry.made 1000) ++ last.made ∧
        earlier.length + 1 = 2 + 1 ∧ (∀ retry ∈ earlier, retry.attempt.Failed) ∧
        last.result = .error .timeout := by
  intro run
  have aligned : Address.Aligned 0x40012000#32 := by decide
  have timedOut : run.1 = .error .timeout := by decide +kernel
  obtain ⟨made, result, earlier, last, stop, log, _, course, _, exhausted, unchanged⟩ :=
    readBits_retries harried aligned .word Mask.full .direct "ADC.SR"
  obtain ⟨all, rfl, failed, ended⟩ := exhausted .timeout timedOut fun _ same => nomatch same
  refine ⟨aligned, timedOut, by decide +kernel, unchanged _ timedOut, earlier, last, ?_, all,
    failed, ended⟩
  have calls := course.calls
  rw [List.append_nil] at calls
  exact log.trans calls

end Session

end RegisterLink
