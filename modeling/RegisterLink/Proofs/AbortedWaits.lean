import RegisterLink.Proofs.Calls

/-!
# Aborted waits

An aborted wait takes its own opening back and nothing else.  The reads made
while it was open were never entered; what else was entered stays in order, and
the trace is as if the wait had not been tried.
-/

namespace RegisterLink

namespace Trace

namespace Call

/-- The call opens, closes or aborts no wait. -/
def Ordinary : Call → Prop
  | read .. | write .. | barrier => True
  | beginWait | endWait .. | abortWait => False

def isRead : Call → Bool
  | read .. => true
  | _ => false

/-- What an ordinary call enters while a wait is open. -/
def entry? : Call → Option Event
  | write address width mask value label => some (.write address width mask value label)
  | barrier => some .barrier
  | _ => none

theorem entry?_ne_waitBegin (call : Call) : call.entry? ≠ some .waitBegin := by
  cases call <;> exact nofun

theorem entry?_of_isRead {call : Call} (reads : call.isRead = true) : call.entry? = none := by
  cases call with
  | read address width label => rfl
  | _ => cases reads

end Call

variable {trace : Trace}

theorem perform_ordinary {call : Call} (ordinary : call.Ordinary)
    (polling : call.isRead = true → trace.waiting = true) :
    trace.perform call = ⟨trace.events ++ call.entry?.toList, trace.waiting⟩ := by
  cases call with
  | read address width label =>
      rw [perform, Trace.read, if_pos (polling rfl)]
      change trace = ⟨trace.events ++ [], trace.waiting⟩
      rw [List.append_nil]
  | write address width mask value label => rfl
  | barrier => rfl
  | beginWait => exact ordinary.elim
  | endWait address mask value label => exact ordinary.elim
  | abortWait => exact ordinary.elim

/-- Ordinary calls add their entries to the trace, if only a trace that waits is read. -/
theorem performAll_ordinary (calls : List Call) :
    ∀ trace : Trace, (∀ call ∈ calls, call.Ordinary) →
      (∀ call ∈ calls, call.isRead = true → trace.waiting = true) →
      trace.performAll calls = ⟨trace.events ++ calls.filterMap Call.entry?, trace.waiting⟩ := by
  induction calls with
  | nil =>
      intro trace _ _
      change trace = ⟨trace.events ++ [], trace.waiting⟩
      rw [List.append_nil]
  | cons call calls ih =>
      intro trace ordinary polling
      rw [List.forall_mem_cons] at ordinary polling
      have next := perform_ordinary ordinary.1 polling.1
      have still : (trace.perform call).waiting = trace.waiting := by rw [next]
      have rest := ih (trace.perform call) ordinary.2 (still ▸ polling.2)
      rw [performAll, List.foldl_cons]
      refine rest.trans ?_
      rw [next, List.filterMap_cons, List.append_assoc]
      cases call.entry? <;> rfl

theorem waitBegin_notMem_entries (calls : List Call) :
    Event.waitBegin ∉ calls.filterMap Call.entry? := by
  intro member
  obtain ⟨call, _, entered⟩ := List.mem_filterMap.mp member
  exact call.entry?_ne_waitBegin entered

theorem filterMap_entry?_unread (calls : List Call) :
    (calls.filter fun call => !call.isRead).filterMap Call.entry? =
      calls.filterMap Call.entry? := by
  rw [List.filterMap_filter]
  refine congrArg (List.filterMap · calls) (funext fun call => ?_)
  cases reads : call.isRead with
  | true => exact (Call.entry?_of_isRead reads).symm
  | false => rfl

theorem performAll_aborted {calls : List Call} (ordinary : ∀ call ∈ calls, call.Ordinary) :
    trace.performAll (.beginWait :: (calls ++ [.abortWait])) =
      ⟨trace.events ++ calls.filterMap Call.entry?, false⟩ := by
  have polled := performAll_ordinary calls trace.beginWait ordinary fun _ _ _ => rfl
  have forgotten := abortWait_opened trace.events (waitBegin_notMem_entries calls)
  change trace.beginWait.performAll (calls ++ [.abortWait]) = _
  rw [performAll_append, polled]
  change (⟨trace.events ++ [.waitBegin] ++ calls.filterMap Call.entry?, true⟩ : Trace).abortWait = _
  rw [List.append_assoc]
  exact forgotten

theorem performAll_unread (closed : trace.waiting = false) {calls : List Call}
    (ordinary : ∀ call ∈ calls, call.Ordinary) :
    trace.performAll (calls.filter fun call => !call.isRead) =
      ⟨trace.events ++ calls.filterMap Call.entry?, false⟩ := by
  refine (performAll_ordinary _ trace ?_ ?_).trans ?_
  · exact List.forall_mem_filter.mpr fun call member _ => ordinary call member
  · refine List.forall_mem_filter.mpr fun call _ unread reads => ?_
    rw [reads] at unread
    cases unread
  · rw [filterMap_entry?_unread, closed]

/--
A wait that is aborted leaves what was written and every barrier made while it
was open, after all that was there before.  The trace has the program that it
has without the wait and its reads.  Where no wait is open, none is aborted.
-/
theorem abortWait_erases (closed : trace.waiting = false) {calls : List Call}
    (ordinary : ∀ call ∈ calls, call.Ordinary) :
    let aborted := trace.performAll (.beginWait :: (calls ++ [.abortWait]))
    aborted.waiting = false ∧ aborted.events = trace.events ++ calls.filterMap Call.entry? ∧
      aborted.compile = (trace.performAll (calls.filter fun call => !call.isRead)).compile ∧
      trace.abortWait = trace := by
  intro aborted
  have erased : aborted = ⟨trace.events ++ calls.filterMap Call.entry?, false⟩ :=
    performAll_aborted ordinary
  rw [performAll_unread closed ordinary, erased]
  refine ⟨rfl, rfl, rfl, ?_⟩
  rw [abortWait, closed, if_neg Bool.false_ne_true]

/-- What is done while a wait is open that will not succeed. -/
def polled : List Call := [
  .read status .word "SR", .write status .word 0x2#32 0#32 "SR.BSY = 0b0",
  .read status .word "SR", .barrier]

/-- Among earlier openings, one of them never closed, the right one is taken back. -/
theorem abortWait_erases_nested :
    let trace := ({} : Trace).performAll nested
    (trace.performAll (.beginWait :: (polled ++ [.abortWait]))).events = [
        .waitBegin, .waitBegin, .waitEnd status 0x2#32 1#32 "SR.BSY == 0b1",
        .write status .word 0x2#32 0#32 "SR.BSY = 0b0", .barrier] ∧
      (trace.performAll (.beginWait :: (polled ++ [.abortWait]))).compile =
        (trace.performAll (polled.filter fun call => !call.isRead)).compile := by
  intro trace
  have ordinary : ∀ call ∈ polled, call.Ordinary := by
    simp only [polled, List.forall_mem_cons]
    exact ⟨trivial, trivial, trivial, trivial, fun _ member => nomatch member⟩
  have closed : trace.waiting = false := rfl
  obtain ⟨-, entered, compiled, -⟩ := abortWait_erases closed ordinary
  exact ⟨entered, compiled⟩

end Trace

end RegisterLink
