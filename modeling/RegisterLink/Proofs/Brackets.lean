import RegisterLink.Proofs.Replay

/-!
# Bracketed waits

The openings and closings of waits are brackets, and waits do not nest.  Events
whose brackets alternate are taken in to the end, and only they have a program;
whatever else stands among them, inside a wait or outside, is taken in anywhere.
-/

namespace RegisterLink

inductive Bracket where
  | opening
  | closing
  deriving DecidableEq

/-- The bracket that an event is, if it is one. -/
def Event.bracket? : Event → Option Bracket
  | waitBegin => some .opening
  | waitEnd .. => some .closing
  | _ => none

theorem Event.eq_waitBegin_of_bracket? {event : Event} (opens : event.bracket? = some .opening) :
    event = waitBegin := by
  cases event with
  | waitBegin => rfl
  | _ => cases opens

/-- So many waits, each opened and closed in turn. -/
def Bracket.waits (count : Nat) : List Bracket :=
  (List.replicate count [opening, closing]).flatten

/-- Other events ignored, every wait is opened and closed before the next one is opened. -/
def WellBracketed (events : List Event) : Prop :=
  ∃ count, events.filterMap Event.bracket? = Bracket.waits count

namespace Bracket

@[simp] theorem length_waits (count : Nat) : (waits count).length = 2 * count := by
  rw [waits, List.length_flatten, List.map_replicate, List.sum_replicate_nat]
  exact Nat.mul_comm count 2

theorem waits_succ (count : Nat) : waits (count + 1) = waits count ++ [opening, closing] := by
  rw [waits, List.replicate_succ', List.flatten_append, List.flatten_singleton]
  rfl

/-- What is still to come closes the wait that is open, if one is, and is well bracketed then. -/
def Finishes (waiting : Bool) (brackets : List Bracket) : Prop :=
  ∃ count, (if waiting then [opening] else []) ++ brackets = waits count

variable {waiting : Bool} {brackets : List Bracket}

theorem finishes_nil : Finishes waiting [] ↔ waiting = false := by
  constructor
  · rintro ⟨count, same⟩
    cases waiting with
    | false => rfl
    | true =>
        cases count with
        | zero => cases same
        | succ count => cases same
  · rintro rfl
    exact ⟨0, rfl⟩

/-- A wait opens only where none is open. -/
theorem finishes_opening :
    Finishes waiting (opening :: brackets) ↔ waiting = false ∧ Finishes true brackets := by
  constructor
  · rintro ⟨count, same⟩
    cases waiting with
    | false => exact ⟨rfl, count, same⟩
    | true =>
        cases count with
        | zero => cases same
        | succ count => cases same
  · rintro ⟨rfl, count, same⟩
    exact ⟨count, same⟩

/-- A wait closes only where one is open. -/
theorem finishes_closing :
    Finishes waiting (closing :: brackets) ↔ waiting = true ∧ Finishes false brackets := by
  constructor
  · rintro ⟨count, same⟩
    cases count with
    | zero => cases waiting <;> cases same
    | succ count =>
        cases waiting with
        | false => cases same
        | true =>
            injection same with _ same
            injection same with _ same
            exact ⟨rfl, count, same⟩
  · rintro ⟨rfl, count, same⟩
    exact ⟨count + 1, congrArg (opening :: closing :: ·) same⟩

end Bracket

namespace Draft

/-- An event that is no bracket is taken in anywhere. -/
theorem takes_other {event : Event} (other : event.bracket? = none) (waiting : Bool) :
    Takes event waiting waiting := by
  cases event with
  | read address width label => exact takes_read address width label waiting
  | write address width mask value label => exact takes_write address width mask value label waiting
  | waitBegin => cases other
  | waitEnd address mask value label => cases other
  | barrier => exact takes_barrier waiting

/-- An event is refused whenever a wait is open or none is, as `waiting` says. -/
def Refuses (event : Event) (waiting : Bool) : Prop :=
  ∀ draft : Draft, draft.waiting = waiting → draft.step event = .error .danglingWait

theorem refuses_waitBegin : Refuses .waitBegin true := by
  intro draft opened
  rw [step, if_pos opened]

theorem refuses_waitEnd (address mask value : Word) (label : String) :
    Refuses (.waitEnd address mask value label) false := by
  intro draft closed
  rw [step, closed]
  rfl

/-- An event is refused exactly where nothing after it could finish what is open. -/
theorem takes_or_refuses (event : Event) (waiting : Bool) (later : List Event) :
    (∃ after, Takes event waiting after ∧
      (Bracket.Finishes waiting ((event :: later).filterMap Event.bracket?) ↔
        Bracket.Finishes after (later.filterMap Event.bracket?))) ∨
    (Refuses event waiting ∧
      ¬ Bracket.Finishes waiting ((event :: later).filterMap Event.bracket?)) := by
  cases event with
  | read address width label => exact .inl ⟨waiting, takes_other rfl waiting, Iff.rfl⟩
  | write address width mask value label => exact .inl ⟨waiting, takes_other rfl waiting, Iff.rfl⟩
  | barrier => exact .inl ⟨waiting, takes_other rfl waiting, Iff.rfl⟩
  | waitBegin =>
      cases waiting with
      | false =>
          exact .inl ⟨true, takes_waitBegin, Bracket.finishes_opening.trans (and_iff_right rfl)⟩
      | true =>
          refine .inr ⟨refuses_waitBegin, fun finishes => ?_⟩
          cases (Bracket.finishes_opening.mp finishes).1
  | waitEnd address mask value label =>
      cases waiting with
      | true =>
          exact .inl ⟨false, takes_waitEnd address mask value label,
            Bracket.finishes_closing.trans (and_iff_right rfl)⟩
      | false =>
          refine .inr ⟨refuses_waitEnd address mask value label, fun finishes => ?_⟩
          cases (Bracket.finishes_closing.mp finishes).1

/-- Events that finish what is open are taken in to the end, and leave no wait open. -/
theorem taken_of_finishes (events : List Event) :
    ∀ draft : Draft, Bracket.Finishes draft.waiting (events.filterMap Event.bracket?) →
      ∃ done, events.foldlM step draft = .ok done ∧ done.waiting = false := by
  induction events with
  | nil => exact fun draft finishes => ⟨draft, rfl, Bracket.finishes_nil.mp finishes⟩
  | cons event events ih =>
      intro draft finishes
      obtain ⟨after, takes, same⟩ | ⟨_, unfinished⟩ := takes_or_refuses event draft.waiting events
      · obtain ⟨next, stepped, rfl⟩ := takes draft rfl
        rw [List.foldlM_cons, stepped]
        exact ih next (same.mp finishes)
      · exact absurd finishes unfinished

/-- Other events are refused, somewhere or at the end. -/
theorem refused_of_not_finishes (events : List Event) :
    ∀ draft : Draft, ¬ Bracket.Finishes draft.waiting (events.filterMap Event.bracket?) →
      events.foldlM step draft >>= finish = .error .danglingWait := by
  induction events with
  | nil =>
      intro draft unfinished
      have opened : draft.waiting = true :=
        (Bool.not_eq_false _).mp (mt Bracket.finishes_nil.mpr unfinished)
      change draft.finish = _
      rw [finish, if_pos opened]
  | cons event events ih =>
      intro draft unfinished
      obtain ⟨after, takes, same⟩ | ⟨refuses, _⟩ := takes_or_refuses event draft.waiting events
      · obtain ⟨next, stepped, rfl⟩ := takes draft rfl
        rw [List.foldlM_cons, stepped]
        exact ih next (mt same.mpr unfinished)
      · rw [List.foldlM_cons, refuses draft rfl]
        rfl

end Draft

theorem WellBracketed.drafted {events : List Event} (bracketed : WellBracketed events) :
    Trace.Drafted events false :=
  Draft.taken_of_finishes events {} bracketed

namespace Program

/-- Events have a program when their waits are bracketed, and otherwise fail in one way. -/
theorem ofEvents_cases (events : List Event) :
    (WellBracketed events ∧ ∃ program, ofEvents events = .ok program) ∨
    (¬ WellBracketed events ∧ ofEvents events = .error .danglingWait) := by
  by_cases bracketed : WellBracketed events
  · exact .inl ⟨bracketed, bracketed.drafted.compiles false⟩
  · exact .inr ⟨bracketed, Draft.refused_of_not_finishes events {} bracketed⟩

theorem exists_ofEvents_iff (events : List Event) :
    (∃ program, ofEvents events = .ok program) ↔ WellBracketed events := by
  obtain ⟨bracketed, compiles⟩ | ⟨unbracketed, refused⟩ := ofEvents_cases events
  · exact iff_of_true compiles bracketed
  · refine iff_of_false ?_ unbracketed
    rintro ⟨program, compiled⟩
    cases compiled.symm.trans refused

theorem ofEvents_error_iff (events : List Event) :
    ofEvents events = .error .danglingWait ↔ ¬ WellBracketed events := by
  obtain ⟨bracketed, program, compiled⟩ | ⟨unbracketed, refused⟩ := ofEvents_cases events
  · refine iff_of_false ?_ (not_not_intro bracketed)
    intro refused
    cases compiled.symm.trans refused
  · exact iff_of_true refused unbracketed

end Program

end RegisterLink
