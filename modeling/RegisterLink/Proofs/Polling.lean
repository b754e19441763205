import RegisterLink.Proofs.Keeps
import RegisterLink.Session.Wait

/-!
# The course of a wait

A wait is some reads of its field in a row.  It ends with the first one that
settles it, or with the first one after which the deadline has come; nothing
else makes it go on or end.  The loop of reads has a result exactly when there
is such a course, however long, and has the result of the course then.
-/

namespace RegisterLink

open RegisterLink.Action (Keeps)

namespace Session

variable {σ : Type}

/-- The result ends a wait at once, with this outcome. -/
inductive Settles (awaited : Word) : Except Error Word → Except Error Unit → Prop
  | reached : Settles awaited (.ok awaited) (.ok ())
  | link (failure : LinkFailure) :
      Settles awaited (.error (.link failure)) (.error (.link failure))
  | unaligned (address : Word) :
      Settles awaited (.error (.unaligned address)) (.error (.unaligned address))

/-- The result is another value, or a failure that counts as one. -/
structure Misses (awaited : Word) (result : Except Error Word) : Prop where
  value : result ≠ .ok awaited
  link : ∀ failure, result ≠ .error (.link failure)
  unaligned : ∀ address, result ≠ .error (.unaligned address)

section Verdicts

variable {awaited : Word} {result : Except Error Word} {outcome : Except Error Unit}

theorem verdict_cases (awaited : Word) (result : Except Error Word) :
    (∃ outcome, Settles awaited result outcome ∧ verdict awaited result = some outcome) ∨
      Misses awaited result ∧ verdict awaited result = none := by
  cases result with
  | ok value =>
      by_cases same : value = awaited
      · subst same
        exact .inl ⟨_, .reached, if_pos rfl⟩
      · refine .inr ⟨⟨fun equal => same (Except.ok.inj equal), ?_, ?_⟩, if_neg same⟩
        · intro failure equal
          cases equal
        · intro address equal
          cases equal
  | error error =>
      cases error with
      | link failure => exact .inl ⟨_, .link failure, rfl⟩
      | unaligned address => exact .inl ⟨_, .unaligned address, rfl⟩
      | _ =>
          refine .inr ⟨⟨?_, ?_, ?_⟩, rfl⟩ <;> simp

theorem Settles.not_misses (settles : Settles awaited result outcome) :
    ¬ Misses awaited result := by
  intro misses
  cases settles with
  | reached => exact misses.value rfl
  | link failure => exact misses.link failure rfl
  | unaligned address => exact misses.unaligned address rfl

theorem Settles.unique {other : Except Error Unit} (settles : Settles awaited result outcome)
    (same : Settles awaited result other) : outcome = other := by
  cases settles <;> cases same <;> rfl

theorem Settles.verdict (settles : Settles awaited result outcome) :
    Session.verdict awaited result = some outcome := by
  obtain ⟨other, same, settled⟩ | ⟨misses, _⟩ := verdict_cases awaited result
  · rw [settled, settles.unique same]
  · exact absurd misses settles.not_misses

theorem Misses.verdict (misses : Misses awaited result) :
    Session.verdict awaited result = none := by
  obtain ⟨outcome, settles, _⟩ | ⟨_, unsettled⟩ := verdict_cases awaited result
  · exact absurd misses settles.not_misses
  · exact unsettled

end Verdicts

/-- What the end of a wait makes of the trace, from the opening on. -/
def closing (field : Field) (awaited : Word) : Except Error Unit → Trace → Trace
  | .ok _, trace =>
      trace.endWait field.register.address field.mask awaited
        (field.path ++ " == " ++ Literal.binary awaited field.bits)
  | .error _, trace => trace.abortWait

section Body

variable [Clock σ]

/-- A wait is its loop; what it does besides shows in the recording only. -/
theorem awaiting_apply (loop : Nat → Action Error (Session σ) Unit) (field : Field)
    (awaited : Word) (timeout : Nat) {outcome : Except Error Unit}
    {session begun reached : Session σ}
    (begins : note Trace.beginWait session = (.ok (), begun))
    (looped : loop (Clock.now begun.link + timeout) begun = (outcome, reached)) :
    awaiting loop field awaited timeout session =
      (outcome, { reached with trace := reached.trace.map (closing field awaited outcome) }) := by
  simp only [awaiting, Action.bind_apply, begins, Action.get_apply, Action.outcome, looped]
  cases outcome with
  | ok done => rfl
  | error error => rfl

end Body

variable [Link σ] [Clock σ]

/-- The course of a wait: the results of its reads, its outcome and the session it reaches. -/
inductive Waits (field : Field) (awaited : Word) (deadline : Nat) :
    Session σ → List (Except Error Word) → Except Error Unit → Session σ → Prop
  | settled {session reached : Session σ} {result : Except Error Word}
      {outcome : Except Error Unit} (read : readField field session = (result, reached))
      (settles : Settles awaited result outcome) :
      Waits field awaited deadline session [result] outcome reached
  | late {session reached : Session σ} {result : Except Error Word}
      (read : readField field session = (result, reached)) (misses : Misses awaited result)
      (past : deadline ≤ Clock.now reached.link) :
      Waits field awaited deadline session [result] (.error .waitTimeout) reached
  | again {session between reached : Session σ} {result : Except Error Word}
      {results : List (Except Error Word)} {outcome : Except Error Unit}
      (read : readField field session = (result, between)) (misses : Misses awaited result)
      (early : Clock.now between.link < deadline)
      (rest : Waits field awaited deadline between results outcome reached) :
      Waits field awaited deadline session (result :: results) outcome reached

variable {field : Field} {awaited : Word} {deadline : Nat} {session reached : Session σ}
  {result : Except Error Word} {results : List (Except Error Word)}
  {outcome : Except Error Unit}

/-- One turn of the loop, by what the read comes to. -/
theorem poll_read (read : readField field session = (result, reached)) :
    poll field awaited deadline session =
      match verdict awaited result with
      | some outcome => some (outcome, reached)
      | none =>
          if deadline ≤ Clock.now reached.link then some (.error .waitTimeout, reached)
          else poll field awaited deadline reached := by
  rw [poll]
  cases turn : verdict awaited result with
  | some outcome => simp only [read, turn]
  | none => simp only [read, turn]

/-- The loop has the result of a course. -/
theorem Waits.poll (waits : Waits field awaited deadline session results outcome reached) :
    Session.poll field awaited deadline session = some (outcome, reached) := by
  induction waits with
  | settled read settles => rw [poll_read read, settles.verdict]
  | late read misses past => rw [poll_read read, misses.verdict, if_pos past]
  | again read misses early rest ih =>
      rw [poll_read read, misses.verdict, if_neg (Nat.not_le_of_lt early)]
      exact ih

/-- A result of the loop is that of a course; a loop without end has none. -/
theorem exists_waits {reaches : Except Error Unit × Session σ}
    (polled : poll field awaited deadline session = some reaches) :
    ∃ results, Waits field awaited deadline session results reaches.1 reaches.2 := by
  refine poll.partial_correctness field awaited deadline
    (fun session reaches => ∃ results, Waits field awaited deadline session results reaches.1
      reaches.2) ?_ session reaches polled
  intro loop ih session reaches turn
  rcases read : readField field session with ⟨result, between⟩
  simp only [read] at turn
  obtain ⟨outcome, settles, settled⟩ | ⟨misses, unsettled⟩ := verdict_cases awaited result
  · rw [settled] at turn
    cases turn
    exact ⟨[result], .settled read settles⟩
  · rw [unsettled] at turn
    dsimp only at turn
    split at turn
    case isTrue past =>
      cases turn
      exact ⟨[result], .late read misses past⟩
    case isFalse early =>
      obtain ⟨results, rest⟩ := ih between reaches turn
      exact ⟨result :: results, .again read misses (Nat.lt_of_not_le early) rest⟩

/-- What a read of the field keeps true, every course does. -/
theorem Waits.keeps {invariant : Session σ → Prop} (kept : Keeps invariant (readField field))
    (waits : Waits field awaited deadline session results outcome reached)
    (holds : invariant session) : invariant reached := by
  have next {session between : Session σ} {result : Except Error Word}
      (read : readField field session = (result, between)) (holds : invariant session) :
      invariant between := by
    have reached := kept session holds
    rwa [read] at reached
  induction waits with
  | settled read settles => exact next read holds
  | late read misses past => exact next read holds
  | again read misses early rest ih => exact ih (next read holds)

/-- The loop follows a course, unless it never ends. -/
theorem polling_cases (field : Field) (awaited : Word) (deadline : Nat) (session : Session σ) :
    (∃ results, Waits field awaited deadline session results
      (polling field awaited deadline session).1 (polling field awaited deadline session).2) ∨
    polling field awaited deadline session = (.error .waitTimeout, session) := by
  cases polled : poll field awaited deadline session with
  | none =>
      right
      rw [polling, polled]
      rfl
  | some reaches =>
      left
      rw [polling, polled]
      exact exists_waits polled

theorem Waits.polling (waits : Waits field awaited deadline session results outcome reached) :
    Session.polling field awaited deadline session = (outcome, reached) := by
  rw [Session.polling, waits.poll]
  rfl

theorem keeps_polling {invariant : Session σ → Prop} (kept : Keeps invariant (readField field))
    (awaited : Word) (deadline : Nat) : Keeps invariant (polling field awaited deadline) := by
  intro session holds
  obtain ⟨results, waits⟩ | endless := polling_cases field awaited deadline session
  · exact waits.keeps kept holds
  · rw [endless]
    exact holds

/-- The loop with so many reads at most, timed out when none are left. -/
def pollWithin (field : Field) (awaited : Word) (deadline : Nat) :
    (reads : Nat) → Action Error (Session σ) Unit
  | 0 => throw .waitTimeout
  | reads + 1 => do
      match verdict awaited (← (readField field).outcome) with
      | some result => Action.ofExcept result
      | none =>
          let session ← get
          if deadline ≤ Clock.now session.link then throw .waitTimeout
          else pollWithin field awaited deadline reads

/-- A wait that is given up after so many reads, if it is not over by then. -/
def awaitWithin (reads : Nat) (field : Field) (awaited : Word) (timeout : Nat) :
    Action Error (Session σ) Unit :=
  awaiting (fun deadline => pollWithin field awaited deadline reads) field awaited timeout

theorem keeps_pollWithin {invariant : Session σ → Prop} (kept : Keeps invariant (readField field))
    (awaited : Word) (deadline reads : Nat) :
    Keeps invariant (pollWithin field awaited deadline reads) := by
  induction reads with
  | zero => exact .throw _
  | succ reads ih =>
      refine kept.outcome.bind fun outcome => ?_
      split
      · exact .ofExcept _
      · refine Keeps.get.bind fun session => ?_
        split
        · exact .throw _
        · exact ih

theorem pollWithin_read (read : readField field session = (result, reached)) (reads : Nat) :
    pollWithin field awaited deadline (reads + 1) session =
      match verdict awaited result with
      | some outcome => (outcome, reached)
      | none =>
          if deadline ≤ Clock.now reached.link then (.error .waitTimeout, reached)
          else pollWithin field awaited deadline reads reached := by
  simp only [pollWithin, Action.bind_apply, Action.outcome, read]
  cases verdict awaited result with
  | some outcome => rfl
  | none =>
      simp only [Action.bind_apply, Action.get_apply]
      split <;> rfl

/-- Where reads were left, the loop has the same result without a bound on them. -/
theorem poll_within (field : Field) (awaited : Word) (deadline reads : Nat) :
    ∀ {session : Session σ},
      (pollWithin field awaited deadline reads session).1 ≠ .error .waitTimeout →
        poll field awaited deadline session =
          some (pollWithin field awaited deadline reads session) := by
  induction reads with
  | zero => exact fun finished => absurd rfl finished
  | succ reads ih =>
      intro session finished
      rcases read : readField field session with ⟨result, between⟩
      rw [pollWithin_read read] at finished ⊢
      rw [poll_read read]
      cases turn : verdict awaited result with
      | some outcome => rfl
      | none =>
          simp only [turn] at finished ⊢
          by_cases past : deadline ≤ Clock.now between.link
          · exact absurd (congrArg Prod.fst (if_pos past)) finished
          · simp only [if_neg past] at finished ⊢
            exact ih finished

/-- A wait that is over before it is given up is the wait itself. -/
theorem awaitField_of_within {reads timeout : Nat}
    (finished : (awaitWithin reads field awaited timeout session).1 ≠ .error .waitTimeout) :
    awaitField field awaited timeout session = awaitWithin reads field awaited timeout session := by
  let begun : Session σ := { session with trace := session.trace.map Trace.beginWait }
  have begins : note Trace.beginWait session = (.ok (), begun) := rfl
  rcases looped : pollWithin field awaited (Clock.now begun.link + timeout) reads begun with
    ⟨outcome, reached⟩
  have within := awaiting_apply (fun deadline => pollWithin field awaited deadline reads) field
    awaited timeout begins looped
  rw [awaitWithin, within] at finished
  have left : (pollWithin field awaited (Clock.now begun.link + timeout) reads begun).1 ≠
      .error .waitTimeout := by
    rwa [looped]
  have polled : polling field awaited (Clock.now begun.link + timeout) begun =
      (outcome, reached) := by
    rw [polling, poll_within field awaited _ reads left, looped]
    rfl
  rw [awaitField, awaitWithin, within]
  exact awaiting_apply (polling field awaited) field awaited timeout begins polled

end Session

end RegisterLink
