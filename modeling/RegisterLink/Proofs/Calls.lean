import RegisterLink.Proofs.Brackets

/-!
# Calls on a trace

A trace that was extended by calls in any order has a program exactly when its
waits are bracketed.  When waits are opened only outside of waits and closed
only inside, that is when no wait is open, since each call leaves the trace
orderly and an aborted wait takes back the one opening that was not closed.
-/

namespace RegisterLink

namespace Trace

namespace Call

/-- A wait is opened only while none is open, and closed only while one is. -/
def Fits (waiting : Bool) : Call → Prop
  | beginWait => waiting = false
  | endWait .. => waiting = true
  | _ => True

end Call

/-- Each of the calls fits the trace left by those before it. -/
def Allows (trace : Trace) : List Call → Prop
  | [] => True
  | call :: calls => call.Fits trace.waiting ∧ (trace.perform call).Allows calls

/-- Every wait that was opened was closed, but for one that is still open. -/
def Orderly (trace : Trace) : Prop :=
  ∃ count, trace.events.filterMap Event.bracket? =
    Bracket.waits count ++ if trace.waiting then [.opening] else []

variable {trace : Trace}

theorem Orderly.push (orderly : trace.Orderly) {event : Event} (other : event.bracket? = none) :
    (trace.push event).Orderly := by
  obtain ⟨count, same⟩ := orderly
  refine ⟨count, Eq.trans ?_ same⟩
  rw [Trace.push, List.filterMap_append, List.filterMap_cons_none other, List.filterMap_nil,
    List.append_nil]

theorem Orderly.beginWait (orderly : trace.Orderly) (closed : trace.waiting = false) :
    trace.beginWait.Orderly := by
  obtain ⟨count, same⟩ := orderly
  rw [closed, if_neg Bool.false_ne_true, List.append_nil] at same
  refine ⟨count, ?_⟩
  rw [Trace.beginWait, Trace.push, List.filterMap_append, same]
  rfl

theorem Orderly.endWait (orderly : trace.Orderly) (opened : trace.waiting = true)
    (address mask value : Word) (label : String) :
    (trace.endWait address mask value label).Orderly := by
  obtain ⟨count, same⟩ := orderly
  rw [opened, if_pos rfl] at same
  refine ⟨count + 1, ?_⟩
  rw [Trace.endWait, Trace.push, List.filterMap_append, same, Bracket.waits_succ,
    List.append_assoc]
  exact (List.append_nil _).symm

/-- The one opening without a closing is the latest, so it is the one taken back. -/
theorem Orderly.abortWait (orderly : trace.Orderly) : trace.abortWait.Orderly := by
  obtain ⟨events, waiting⟩ := trace
  cases waiting with
  | false => exact orderly
  | true =>
      obtain ⟨count, same⟩ := orderly
      obtain ⟨settled, rest, rfl, waits, unsettled⟩ := List.filterMap_eq_append_iff.mp same
      obtain ⟨between, event, later, rfl, others, opens, done⟩ :=
        List.filterMap_eq_cons_iff.mp unsettled
      obtain rfl := Event.eq_waitBegin_of_bracket? opens
      have latest : Event.waitBegin ∉ later := fun member =>
        nomatch List.filterMap_eq_nil_iff.mp done _ member
      refine ⟨count, ?_⟩
      rw [← List.append_assoc, abortWait_opened _ latest, List.filterMap_append,
        List.filterMap_append, waits, List.filterMap_eq_nil_iff.mpr others, done,
        List.append_nil]
      rfl

/-- A call that fits leaves an orderly trace. -/
theorem Orderly.perform (orderly : trace.Orderly) {call : Call} (fits : call.Fits trace.waiting) :
    (trace.perform call).Orderly := by
  cases call with
  | read address width label =>
      rw [Trace.perform, Trace.read]
      split
      · exact orderly
      · exact orderly.push rfl
  | write address width mask value label => exact orderly.push rfl
  | barrier => exact orderly.push rfl
  | beginWait => exact orderly.beginWait fits
  | endWait address mask value label => exact orderly.endWait fits address mask value label
  | abortWait => exact orderly.abortWait

theorem Orderly.performAll (calls : List Call) :
    ∀ {trace : Trace}, trace.Orderly → trace.Allows calls → (trace.performAll calls).Orderly := by
  induction calls with
  | nil => exact fun orderly _ => orderly
  | cons call calls ih => exact fun orderly allows => ih (orderly.perform allows.1) allows.2

theorem orderly_empty : ({} : Trace).Orderly := ⟨0, rfl⟩

/-- The waits of an orderly trace are bracketed when the last of them is closed. -/
theorem Orderly.wellBracketed_iff (orderly : trace.Orderly) :
    WellBracketed trace.events ↔ trace.waiting = false := by
  obtain ⟨count, same⟩ := orderly
  constructor
  · rintro ⟨whole, bracketed⟩
    have parity := congrArg List.length (bracketed.symm.trans same)
    cases opened : trace.waiting with
    | false => rfl
    | true =>
        rw [opened, if_pos rfl, List.length_append, List.length_singleton, Bracket.length_waits,
          Bracket.length_waits] at parity
        omega
  · intro closed
    rw [closed, if_neg Bool.false_ne_true, List.append_nil] at same
    exact ⟨count, same⟩

/--
Calls in any order leave a trace with a program exactly when its waits are
bracketed, and otherwise with no program for this one reason.  If waits are
opened only while none is open and closed only while one is, there is a program
exactly when no wait is open in the end.
-/
theorem compile_bracketed (calls : List Call) :
    let trace := ({} : Trace).performAll calls
    ((∃ program, trace.compile = .ok program) ↔ WellBracketed trace.events) ∧
      (trace.compile = .error .danglingWait ↔ ¬ WellBracketed trace.events) ∧
      (({} : Trace).Allows calls →
        ((∃ program, trace.compile = .ok program) ↔ trace.waiting = false)) := by
  intro trace
  have compiles : (∃ program, trace.compile = .ok program) ↔ WellBracketed trace.events :=
    Program.exists_ofEvents_iff trace.events
  refine ⟨compiles, Program.ofEvents_error_iff trace.events, fun allows => ?_⟩
  exact compiles.trans (orderly_empty.performAll calls allows).wellBracketed_iff

/-- The address of a register that is polled. -/
def status : Word := 0x40022000#32

/-- A wait that is aborted, and one that succeeds. -/
def retried : List Call := [
  .beginWait, .read status .word "SR", .abortWait, .barrier,
  .beginWait, .read status .word "SR", .endWait status 0x2#32 1#32 "SR.BSY == 0b1"]

/-- A wait that is opened inside of another, and only one of them closed. -/
def nested : List Call := [
  .beginWait, .beginWait, .endWait status 0x2#32 1#32 "SR.BSY == 0b1"]

theorem compile_bracketed_retried :
    ({} : Trace).Allows retried ∧ WellBracketed (({} : Trace).performAll retried).events ∧
      (({} : Trace).performAll nested).waiting = false ∧
      ¬ WellBracketed (({} : Trace).performAll nested).events := by
  have allowed : ({} : Trace).Allows retried :=
    ⟨rfl, trivial, trivial, trivial, rfl, trivial, rfl, trivial⟩
  obtain ⟨compiles, -, closes⟩ := compile_bracketed retried
  exact ⟨allowed, compiles.mp ((closes allowed).mpr rfl), rfl,
    (compile_bracketed nested).2.1.mp rfl⟩

end Trace

end RegisterLink
