import RegisterLink.Word

/-!
# Errors

Every failure of an access is one of the causes below.  A failure of the link
itself is kept apart: it ends a call, while the other causes may be tried again.
-/

namespace RegisterLink

/-- A failure of the byte link below a session, with what is reported of its kind. -/
structure LinkFailure where
  report : String
  deriving DecidableEq

/-- A write that takes none of the bytes it is given. -/
def LinkFailure.writeZero : LinkFailure := ⟨"WriteZero"⟩

inductive Error where
  | link (failure : LinkFailure)
  /-- No answer at all. -/
  | timeout
  /-- The answer has another size than asked for. -/
  | framing (expected received : Nat)
  /-- The checksum of the answer is wrong. -/
  | integrity
  /-- The synchronization marker was not acknowledged. -/
  | unacknowledged
  /-- A request of this many bytes never fits the budget. -/
  | oversized (size : Nat)
  | unaligned (address : Word)
  /-- A field did not reach the awaited value. -/
  | waitTimeout
  /-- A recording is open already. -/
  | recordingOpen
  /-- A wait was opened twice, closed without an opening, or left open. -/
  | danglingWait
  deriving DecidableEq

namespace Error

def message : Error → String
  | link _ => "problem with uart link"
  | timeout => "no response arrived in expected time"
  | framing expected received =>
      s!"response framing error: expected {expected} bytes, received {received}"
  | integrity => "response checksum mismatch"
  | unacknowledged => "resynchronization failed"
  | oversized size => s!"request of {size} bytes exceeds the synchronization budget"
  | unaligned address =>
      "register address 0x" ++ String.ofList (Literal.digits 16 8 address.toNat) ++
        " is not word aligned"
  | waitTimeout => "field did not reach expected value in time"
  | recordingOpen => "a recording is already open on this session"
  | danglingWait => "recorded trace has a dangling wait"

end Error

end RegisterLink
