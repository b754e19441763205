import RegisterLink.Envelope
import RegisterLink.Link
import RegisterLink.Request.Codec

/-!
# Channels

A channel frames requests and answers on a link.  The device can take only so
many bytes before it has to get back in step, so the channel counts the bytes
sent since the last synchronization point, which is a valid answer or an attempt
at a handshake, and makes a handshake before the count would reach the budget.
-/

namespace RegisterLink

/-- The settings of a session. -/
structure Config where
  /-- The speed of a serial port, in baud. -/
  rate : Nat := 1000000
  /-- The longest wait for an answer, in milliseconds. -/
  timeout : Nat := 1000
  /-- As many bytes sent force a synchronization. -/
  budget : Nat := 1040
  /-- How often a failed read is tried again. -/
  retries : Nat := 0

structure Channel (σ : Type) where
  link : σ
  timeout : Nat
  budget : Nat
  /-- Bytes sent since the last synchronization point. -/
  sent : Nat := 0

namespace Channel

variable {σ α : Type}

def start (link : σ) (config : Config) : Channel σ where
  link := link
  timeout := config.timeout
  budget := config.budget

/-- Makes a call on the link. -/
def onLink (action : Action LinkFailure σ α) : Action Error (Channel σ) α :=
  (action.raise Error.link).within link fun channel link => { channel with link }

/-- Marks a synchronization point. -/
def settle : Action Error (Channel σ) Unit :=
  Action.update fun channel => { channel with sent := 0 }

/-- Counts bytes towards the budget. -/
def count (size : Nat) : Action Error (Channel σ) Unit :=
  Action.update fun channel => { channel with sent := channel.sent + size }

variable [Link σ]

/-- Drops received bytes that were not read. -/
def clear : Action Error (Channel σ) Unit := onLink Link.discard

/-- Sends the marker and waits for its acknowledgement. -/
def resync : Action Error (Channel σ) Unit := do
  settle
  onLink (Link.send Handshake.marker)
  let channel ← get
  let answer ← onLink (Link.receive Handshake.acknowledgement.length channel.timeout)
  if answer = Handshake.acknowledgement then pure () else throw .unacknowledged

/--
A handshake that only a failure of the link stops: without its acknowledgement
the alignment stays in doubt, but going on remains the best that can be done.
-/
def realign : Action Error (Channel σ) Unit := do
  match ← resync.outcome with
  | .error (.link failure) => throw (.link failure)
  | _ => pure ()

/-- Sends a frame that fits, and counts its bytes whether or not they got out. -/
def post (frame : List Byte) : Action Error (Channel σ) Unit := do
  count frame.length
  onLink (Link.send frame)

/-- Sends a request, after a handshake if it would exhaust the budget. -/
def send (content : List Byte) : Action Error (Channel σ) Unit := do
  let frame ← Action.ofExcept (Envelope.wrap content)
  let channel ← get
  if channel.budget ≤ frame.length then throw (.oversized frame.length)
  else
    if channel.budget ≤ channel.sent + frame.length then realign
    post frame

/-- Receives an answer of exactly `size` content bytes. -/
def receive (size : Nat) : Action Error (Channel σ) (List Byte) := do
  let channel ← get
  let frame ← onLink (Link.receive (size + Envelope.overhead) channel.timeout)
  match Envelope.contents size frame with
  | .ok content =>
      settle
      pure content
  | .error (.framing expected received) =>
      -- the rest of a frame of another size must not be taken for the next answer
      clear
      throw (.framing expected received)
  | .error error => throw error

/-- One exchange that reads a value. -/
def load (address : Word) (width : Width) : Action Error (Channel σ) Word := do
  clear
  send (Request.read address width).encode
  let content ← receive width.bytes
  pure (width.ofBytes content)

/--
Reads a value, trying again after a handshake as often as allowed.  A failure of
the link is final, in an exchange and in a handshake.
-/
def fetch (address : Word) (width : Width) : (retries : Nat) → Action Error (Channel σ) Word
  | 0 => load address width
  | retries + 1 => do
      match ← (load address width).outcome with
      | .ok word => pure word
      | .error (.link failure) => throw (.link failure)
      | .error _ =>
          realign
          fetch address width retries

end Channel

end RegisterLink
