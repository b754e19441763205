import RegisterLink.Session.Access

/-!
# Waits

A wait reads a field again and again until it has a value.  A read that fails
counts as one that shows another value, unless the link failed or the register
cannot be read at all.  The deadline is looked at after each read that did not
settle the wait, so there is always one read, and the value wins over the
deadline.  Nothing else ends a wait: on a clock that stands still it may go on
for ever.
-/

namespace RegisterLink

namespace Session

variable {σ : Type}

/-- What one read means for a wait: nothing, or its end. -/
def verdict (awaited : Word) : Except Error Word → Option (Except Error Unit)
  | .ok value => if value = awaited then some (.ok ()) else none
  | .error (.link failure) => some (.error (.link failure))
  | .error (.unaligned address) => some (.error (.unaligned address))
  | .error _ => none

variable [Link σ] [Clock σ]

/--
Reads a field until it has a value or the deadline has passed: the outcome and
the session then, or nothing if the reads never end.
-/
def poll (field : Field) (awaited : Word) (deadline : Nat) (session : Session σ) :
    Option (Except Error Unit × Session σ) :=
  let (result, reached) := readField field session
  match verdict awaited result with
  | some outcome => some (outcome, reached)
  | none =>
      if deadline ≤ Clock.now reached.link then some (.error .waitTimeout, reached)
      else reached |>.poll field awaited deadline
partial_fixpoint

/-- A wait by a loop of reads that is given the deadline, entered as a whole if it succeeds. -/
def awaiting (loop : (deadline : Nat) → Action Error (Session σ) Unit) (field : Field)
    (awaited : Word) (timeout : Nat) : Action Error (Session σ) Unit := do
  note Trace.beginWait
  let session ← get
  match ← (loop (Clock.now session.link + timeout)).outcome with
  | .ok () =>
      note (·.endWait field.register.address field.mask awaited
        (field.path ++ " == " ++ Literal.binary awaited field.bits))
  | .error error =>
      note Trace.abortWait
      throw error

/--
The loop as an action.  An action has to have an outcome, so a loop without end
counts as timed out before its first read.
-/
def polling (field : Field) (awaited : Word) (deadline : Nat) : Action Error (Session σ) Unit :=
  fun session => (poll field awaited deadline session).getD (.error .waitTimeout, session)

/-- Waits until a field has a right-aligned value, `timeout` milliseconds at most. -/
def awaitField (field : Field) (awaited : Word) (timeout : Nat) : Action Error (Session σ) Unit :=
  awaiting (polling field awaited) field awaited timeout

end Session

end RegisterLink
