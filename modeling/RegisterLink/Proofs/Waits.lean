import RegisterLink.Proofs.Clock
import RegisterLink.Proofs.Transparency

/-!
# Waits

The reads of a wait are reads of its field in a row, and where a wait ends can be
told from their results and the times after them.  On a link with a clock that
goes on, each read that does not settle the wait takes a tick of the time that is
left, so that there is an end, after no more reads than there are ticks.
-/

namespace RegisterLink

namespace Session

variable {σ : Type}

section Reads

variable [Link σ]

/-- The results of reading a field so many times in a row, and the session after that. -/
def readings (field : Field) : Nat → Session σ → List (Except Error Word) × Session σ
  | 0, session => ([], session)
  | count + 1, session =>
      let (result, session) := readField field session
      let (results, session) := readings field count session
      (result :: results, session)

/-- One more read is made in the session that the others reached. -/
theorem readings_succ (field : Field) (count : Nat) (session : Session σ) :
    (readings field (count + 1) session).2 =
      (readField field (readings field count session).2).2 := by
  induction count generalizing session with
  | zero => rfl
  | succ count ih => exact ih (readField field session).2

/-- Reads in a row do not depend on a recording. -/
theorem readings_unrecorded (field : Field) (count : Nat) (session : Session σ) :
    readings field count session.unrecorded =
      ((readings field count session).1, (readings field count session).2.unrecorded) := by
  induction count generalizing session with
  | zero => rfl
  | succ count ih =>
      simp only [readings, blind_readField field session, ih]
      rfl

/-- Sessions that are alike but for their recordings read alike. -/
theorem readings_alike {session other : Session σ} (alike : session.unrecorded = other.unrecorded)
    (field : Field) (count : Nat) :
    (readings field count session).1 = (readings field count other).1 ∧
      (readings field count session).2.channel = (readings field count other).2.channel := by
  have first := readings_unrecorded field count session
  have second := readings_unrecorded field count other
  rw [alike, second] at first
  obtain ⟨results, reached⟩ := Prod.mk.inj first
  exact ⟨results.symm, (congrArg Session.channel reached).symm⟩

end Reads

variable [Link σ] [Clock σ]

section Courses

variable {field : Field} {awaited : Word} {deadline : Nat} {session reached : Session σ}
  {result : Except Error Word} {results before after : List (Except Error Word)}
  {outcome : Except Error Unit}

theorem Waits.readings (waits : Waits field awaited deadline session results outcome reached) :
    Session.readings field results.length session = (results, reached) := by
  induction waits with
  | settled read settles => simp only [List.length_singleton, Session.readings, read]
  | late read misses past => simp only [List.length_singleton, Session.readings, read]
  | again read misses early rest ih => simp only [List.length_cons, Session.readings, read, ih]

theorem Waits.positive (waits : Waits field awaited deadline session results outcome reached) :
    0 < results.length := by
  cases waits <;> exact Nat.succ_pos _

/-- After some of its reads a wait is still one, with the rest of them. -/
theorem Waits.resumed
    (waits : Waits field awaited deadline session (before ++ result :: after) outcome reached) :
    Waits field awaited deadline (Session.readings field before.length session).2
      (result :: after) outcome reached := by
  induction before generalizing session with
  | nil => exact waits
  | cons first before ih =>
      generalize split : first :: before ++ result :: after = results at waits
      cases waits with
      | settled read settles => simp at split
      | late read misses past => simp at split
      | again read misses early rest =>
          obtain ⟨rfl, rfl⟩ := List.cons.inj split
          have further := ih rest
          rwa [List.length_cons, Session.readings, read]

/-- The read that settles a wait is its last one and gives it its outcome. -/
theorem Waits.settles {other : Except Error Unit}
    (waits : Waits field awaited deadline session (before ++ result :: after) outcome reached)
    (settles : Settles awaited result other) : after = [] ∧ outcome = other := by
  cases waits.resumed with
  | settled read settled => exact ⟨rfl, settled.unique settles⟩
  | late read misses past => exact absurd misses settles.not_misses
  | again read misses early rest => exact absurd misses settles.not_misses

/-- A read that misses is the last one exactly when the deadline has come. -/
theorem Waits.misses
    (waits : Waits field awaited deadline session (before ++ result :: after) outcome reached)
    (misses : Misses awaited result) :
    (after = [] ↔
      deadline ≤ Clock.now (Session.readings field (before.length + 1) session).2.link) ∧
    (after = [] → outcome = .error .waitTimeout) := by
  rw [readings_succ]
  cases waits.resumed with
  | settled read settles => exact absurd misses settles.not_misses
  | late read misses past =>
      rw [read]
      exact ⟨⟨fun _ => past, fun _ => rfl⟩, fun _ => rfl⟩
  | again read misses early rest =>
      rw [read]
      have more : after ≠ [] := List.ne_nil_of_length_pos rest.positive
      exact ⟨⟨fun alone => absurd alone more, fun past => absurd early (Nat.not_lt_of_le past)⟩,
        fun alone => absurd alone more⟩

/-- How a wait ends is decided by its last read. -/
theorem Waits.last (waits : Waits field awaited deadline session results outcome reached) :
    ∃ before result, results = before ++ [result] ∧
      (Settles awaited result outcome ∨
        Misses awaited result ∧ outcome = .error .waitTimeout ∧
          deadline ≤ Clock.now reached.link) := by
  induction waits with
  | settled read settles => exact ⟨[], _, rfl, .inl settles⟩
  | late read misses past => exact ⟨[], _, rfl, .inr ⟨misses, rfl, past⟩⟩
  | @again _ _ _ first _ _ read misses early rest ih =>
      obtain ⟨before, result, rfl, ending⟩ := ih
      exact ⟨first :: before, result, rfl, ending⟩

theorem Waits.ok_iff (waits : Waits field awaited deadline session results outcome reached) :
    outcome = .ok () ↔ results.getLast? = some (.ok awaited) := by
  obtain ⟨before, result, rfl, ending⟩ := waits.last
  rw [List.getLast?_concat, Option.some.injEq]
  constructor
  · rintro rfl
    rcases ending with settles | ⟨_, late, _⟩
    · cases settles
      rfl
    · cases late
  · rintro rfl
    exact (waits.settles .reached).2

/-- An unaligned field ends a wait at its first read, which makes no call on the link. -/
theorem Waits.unaligned (unaligned : ¬ Address.Aligned field.register.address)
    (waits : Waits field awaited deadline session results outcome reached) :
    outcome = .error (.unaligned field.register.address) ∧ reached = session := by
  have refused {result : Except Error Word} {between : Session σ}
      (read : readField field session = (result, between)) :
      result = .error (.unaligned field.register.address) ∧ between = session := by
    rw [readField, readBits_unaligned unaligned] at read
    obtain ⟨first, second⟩ := Prod.mk.inj read
    exact ⟨first.symm, second.symm⟩
  cases waits with
  | settled read settles =>
      obtain ⟨rfl, rfl⟩ := refused read
      cases settles
      exact ⟨rfl, rfl⟩
  | late read misses past => exact absurd (refused read).1 (misses.unaligned _)
  | again read misses early rest => exact absurd (refused read).1 (misses.unaligned _)

variable {tick : Nat} {running : σ → Prop}

/-- A read that misses was made on the link, and took a tick there. -/
theorem since_missed (ticking : Ticking tick running) (runs : running session.link)
    (read : readField field session = (result, reached)) (misses : Misses awaited result) :
    Since running (Clock.now session.link + tick) reached.link := by
  by_cases aligned : Address.Aligned field.register.address
  · have taken := ticking.readField aligned runs
    rwa [read] at taken
  · rw [readField, readBits_unaligned aligned] at read
    exact absurd (Prod.mk.inj read).1.symm (misses.unaligned _)

/-- All reads of a wait but the last take a tick each of the time before the deadline. -/
theorem Waits.few (ticking : Ticking tick running) (runs : running session.link)
    (waits : Waits field awaited deadline session results outcome reached) :
    results.length = 1 ∨ Clock.now session.link + (results.length - 1) * tick < deadline := by
  -- the ticks of the reads that missed add up; the last read may end after the deadline
  induction waits with
  | settled read settles => exact .inl rfl
  | late read misses past => exact .inl rfl
  | @again session between _ _ results _ read misses early rest ih =>
      have taken := since_missed ticking runs read misses
      have past := taken.past
      right
      rw [List.length_cons, Nat.add_sub_cancel]
      rcases ih taken.runs with one | within
      · rw [one, Nat.one_mul]
        exact Nat.lt_of_le_of_lt past early
      · obtain ⟨count, length⟩ := Nat.exists_eq_succ_of_ne_zero (Nat.ne_of_gt rest.positive)
        rw [length, Nat.succ_sub_one] at within
        rw [length, Nat.succ_mul]
        omega

/-- As many reads as there are ticks before the deadline, rounded up, or one. -/
theorem Waits.length_le {timeout : Nat} (ticking : Ticking tick running) (positive : 0 < tick)
    (runs : running session.link)
    (waits : Waits field awaited (Clock.now session.link + timeout) session results outcome
      reached) :
    results.length ≤ max 1 ((timeout + tick - 1) / tick) := by
  rcases waits.few ticking runs with one | within
  · rw [one]
    exact Nat.le_max_left _ _
  · obtain ⟨count, length⟩ := Nat.exists_eq_succ_of_ne_zero (Nat.ne_of_gt waits.positive)
    rw [length, Nat.succ_sub_one] at within
    have room : results.length * tick ≤ timeout + tick - 1 := by
      rw [length, Nat.succ_mul]
      omega
    exact Nat.le_trans ((Nat.le_div_iff_mul_le positive).mpr room) (Nat.le_max_right _ _)

/-- A wait that times out has its deadline behind it, and no read with the awaited value. -/
theorem Waits.timed_out
    (waits : Waits field awaited deadline session results (.error .waitTimeout) reached) :
    deadline ≤ Clock.now reached.link ∧ .ok awaited ∉ results := by
  constructor
  · obtain ⟨before, result, rfl, settles | ⟨_, _, past⟩⟩ := waits.last
    · cases settles
    · exact past
  · intro member
    obtain ⟨before, after, rfl⟩ := List.append_of_mem member
    cases (waits.settles .reached).2

/-- Where time goes on, a wait comes to an end. -/
theorem Waits.exists (ticking : Ticking tick running) (positive : 0 < tick) (field : Field)
    (awaited : Word) (deadline : Nat) {session : Session σ} (runs : running session.link) :
    ∃ results outcome reached, Waits field awaited deadline session results outcome reached := by
  -- a read that misses takes some of the time before the deadline
  induction left : deadline - Clock.now session.link using Nat.strongRecOn
    generalizing session with
  | _ left ih =>
      subst left
      rcases read : readField field session with ⟨result, between⟩
      obtain ⟨outcome, settles, _⟩ | ⟨misses, _⟩ := verdict_cases awaited result
      · exact ⟨[result], outcome, between, .settled read settles⟩
      · by_cases past : deadline ≤ Clock.now between.link
        · exact ⟨[result], _, between, .late read misses past⟩
        · have early := Nat.lt_of_not_le past
          have taken := since_missed ticking runs read misses
          have spent := taken.past
          obtain ⟨results, outcome, reached, rest⟩ := ih _ (by omega) taken.runs rfl
          exact ⟨result :: results, outcome, reached, .again read misses early rest⟩

/-- The wait that has a course ends as the course does. -/
theorem Waits.awaitField {timeout : Nat} {begun : Session σ}
    (begins : note Trace.beginWait session = (.ok (), begun))
    (waits : Waits field awaited (Clock.now begun.link + timeout) begun results outcome reached) :
    (Session.awaitField field awaited timeout session).1 = outcome ∧
      (Session.awaitField field awaited timeout session).2.channel = reached.channel := by
  rw [Session.awaitField,
    awaiting_apply (Session.polling field awaited) field awaited timeout begins waits.polling]
  exact ⟨rfl, rfl⟩

/-- A device that does not answer the first reads, on a clock that stands still. -/
def deaf : Session Cable := start { device := { memory := fun _ => 2#32, silenced := 20 } } {}

/-- No number of reads ends a wait while its deadline is ahead. -/
example : (awaitField flag 1#32 1 deaf).1 = .ok () := by
  rw [(awaitField_of_within (by decide +kernel) :
    awaitField flag 1#32 1 deaf = awaitWithin 21 flag 1#32 1 deaf)]
  decide +kernel

end Courses

/--
On a link where time goes on, a wait makes at least one read of its field, and
no more than there are ticks in its time, rounded up.  It succeeds exactly when
the last of them gave the awaited value, and times out only at its deadline when
none did.  A failure of the link ends it at once, and an unaligned field before
any call; any other failure of a read leaves it to the deadline whether the wait
goes on, as another value does.
-/
theorem awaitField_reads {tick : Nat} {running : σ → Prop} (ticking : Ticking tick running)
    (positive : 0 < tick) {session : Session σ} (runs : running session.link) (field : Field)
    (awaited : Word) (timeout : Nat) :
    let run := awaitField field awaited timeout session
    let deadline := Clock.now session.link + timeout
    ∃ results,
      (readings field results.length session).1 = results ∧
      run.2.channel = (readings field results.length session).2.channel ∧
      1 ≤ results.length ∧ results.length ≤ max 1 ((timeout + tick - 1) / tick) ∧
      (run.1 = .ok () ↔ results.getLast? = some (.ok awaited)) ∧
      (run.1 = .error .waitTimeout →
        deadline ≤ Clock.now run.2.link ∧ .ok awaited ∉ results) ∧
      (∀ before failure after, results = before ++ .error (.link failure) :: after →
        after = [] ∧ run.1 = .error (.link failure)) ∧
      (¬ Address.Aligned field.register.address →
        run.1 = .error (.unaligned field.register.address) ∧ run.2.channel = session.channel) ∧
      ∀ before result after, results = before ++ result :: after → Misses awaited result →
        (after = [] ↔
          deadline ≤ Clock.now (readings field (before.length + 1) session).2.link) ∧
        (after = [] → run.1 = .error .waitTimeout) := by
  intro run deadline
  let begun : Session σ := { session with trace := session.trace.map Trace.beginWait }
  have begins : note Trace.beginWait session = (.ok (), begun) := rfl
  obtain ⟨results, outcome, reached, course⟩ := Waits.exists ticking positive field awaited
    deadline (show running begun.link from runs)
  obtain ⟨same, channel⟩ := course.awaitField begins
  have waits : Waits field awaited deadline begun results run.1 reached := by
    rwa [show run.1 = outcome from same]
  have unseen : session.unrecorded = begun.unrecorded := rfl
  have alike (count : Nat) :
      (readings field count session).1 = (readings field count begun).1 ∧
        (readings field count session).2.channel = (readings field count begun).2.channel :=
    readings_alike unseen field count
  have link : run.2.link = reached.link := congrArg Channel.link channel
  have few : results.length ≤ max 1 ((timeout + tick - 1) / tick) :=
    Waits.length_le ticking positive (show running begun.link from runs) waits
  refine ⟨results, ?_, ?_, waits.positive, few, waits.ok_iff, ?_, ?_, ?_, ?_⟩
  · rw [(alike results.length).1, waits.readings]
  · rw [(alike results.length).2, waits.readings]
    exact channel
  · intro late
    rw [late] at waits
    rw [link]
    exact waits.timed_out
  · rintro before failure after rfl
    exact waits.settles (.link failure)
  · intro unaligned
    obtain ⟨refused, rfl⟩ := waits.unaligned unaligned
    exact ⟨refused, channel⟩
  · rintro before result after rfl misses
    have clock : (readings field (before.length + 1) session).2.link =
        (readings field (before.length + 1) begun).2.link :=
      congrArg Channel.link (alike _).2
    rw [clock]
    exact waits.misses misses

/-- A session whose first answer is cut off, with a device that raises its flag after the second. -/
def belated : Session (Bench (Timed Device)) :=
  start
    { link := { link := {} }
      tick := 2
      cut := some 0
      changes := [(2, fun timed => { timed with link := timed.link.poke 0x40012000#32 2#32 })] }
    {}

theorem awaitField_reads_belated :
    Bench.Runs 2 belated.link ∧ 0 < 2 ∧
      (readings flag 3 belated).1 = [.error .timeout, .ok 0#32, .ok 1#32] ∧
      (awaitField flag 1#32 10 belated).1 = .ok () ∧
      Clock.now (awaitField flag 1#32 10 belated).2.link = 12 ∧
      ∃ results, (readings flag results.length belated).1 = results ∧ results.length ≤ 5 ∧
        results.getLast? = some (.ok 1#32) := by
  have steady : Ticking 0 (fun _ : Timed Device => True) :=
    ⟨fun _ _ _ => ⟨trivial, Nat.le_refl _⟩, fun _ _ _ _ => ⟨trivial, Nat.le_refl _⟩,
      fun _ => ⟨trivial, Nat.le_refl _⟩⟩
  have advances : Advances (Timed Device) := fun _ _ => rfl
  have runs : Bench.Runs 2 belated.link := by
    refine ⟨Nat.le_refl 2, fun change member link => ?_⟩
    obtain rfl := List.mem_singleton.mp member
    exact Nat.le_refl _
  have same : awaitField flag 1#32 10 belated = awaitWithin 3 flag 1#32 10 belated :=
    awaitField_of_within (by decide +kernel)
  have succeeded : (awaitField flag 1#32 10 belated).1 = .ok () := by
    rw [same]
    decide +kernel
  obtain ⟨results, read, _, _, few, reaches, _⟩ :=
    awaitField_reads (Bench.ticking steady advances) (by decide : 0 < 2) runs flag 1#32 10
  refine ⟨runs, by decide, by decide +kernel, succeeded, ?_, results, read, few,
    reaches.mp succeeded⟩
  rw [same]
  decide +kernel

end Session

end RegisterLink
