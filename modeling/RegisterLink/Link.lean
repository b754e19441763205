import RegisterLink.Action
import RegisterLink.Error

/-!
# Links

A link is an ordered byte stream to the device.  Nothing is promised about what
a receive delivers: any bytes, too few of them, or a failure.

A timed link sets a clock beside a link that has no notion of time itself.  A
logged link behaves as the link below and keeps a list of the calls made on it,
each with its result.
-/

namespace RegisterLink

class Link (σ : Type) where
  /-- Writes all bytes. -/
  send (data : List Byte) : Action LinkFailure σ Unit
  /-- Reads until `size` bytes have come or the timeout, in milliseconds, has passed. -/
  receive (size timeout : Nat) : Action LinkFailure σ (List Byte)
  /-- Drops the bytes that have come and were not read. -/
  discard : Action LinkFailure σ Unit

/-- A state that knows the time, in milliseconds. -/
class Clock (σ : Type) where
  now : σ → Nat
  advance : Nat → σ → σ

structure Timed (σ : Type) where
  link : σ
  clock : Nat := 0

namespace Timed

variable {σ α : Type}

/-- Takes no time. -/
def lift (action : Action LinkFailure σ α) : Action LinkFailure (Timed σ) α :=
  action.within link fun timed link => { timed with link }

instance [Link σ] : Link (Timed σ) where
  send data := lift (Link.send data)
  receive size timeout := lift (Link.receive size timeout)
  discard := lift Link.discard

instance : Clock (Timed σ) where
  now := clock
  advance time timed := { timed with clock := timed.clock + time }

end Timed

inductive LinkCall where
  | send (data : List Byte) (result : Except LinkFailure Unit)
  | receive (size timeout : Nat) (result : Except LinkFailure (List Byte))
  | discard (result : Except LinkFailure Unit)

structure Logged (σ : Type) where
  link : σ
  log : List LinkCall := []

namespace Logged

variable {σ α : Type}

/-- Runs an action on the link below and enters what `entry` makes of its result. -/
def record (action : Action LinkFailure σ α) (entry : Except LinkFailure α → LinkCall) :
    Action LinkFailure (Logged σ) α :=
  fun logged =>
    let (result, link) := action logged.link
    (result, { link, log := logged.log ++ [entry result] })

instance [Link σ] : Link (Logged σ) where
  send data := record (Link.send data) (.send data)
  receive size timeout := record (Link.receive size timeout) (.receive size timeout)
  discard := record Link.discard .discard

instance [Clock σ] : Clock (Logged σ) where
  now logged := Clock.now logged.link
  advance time logged := { logged with link := Clock.advance time logged.link }

end Logged

end RegisterLink
