import RegisterLink.Channel
import RegisterLink.Program.Compile

/-!
# Sessions

A session makes accesses on one channel, one at a time.  While a recording is
open it keeps a trace of the accesses that succeeded, which finishing the
recording compiles into a program.
-/

namespace RegisterLink

structure Session (σ : Type) where
  channel : Channel σ
  config : Config
  /-- The trace of the open recording. -/
  trace : Option Trace := none

namespace Session

variable {σ α : Type}

def start (link : σ) (config : Config) : Session σ where
  channel := .start link config
  config := config

def link (session : Session σ) : σ := session.channel.link

/-- Changes the link from outside, as by an event on the device. -/
def mapLink (change : σ → σ) (session : Session σ) : Session σ :=
  { session with channel := { session.channel with link := change session.channel.link } }

/-- Makes an exchange on the channel. -/
def onChannel (action : Action Error (Channel σ) α) : Action Error (Session σ) α :=
  action.within channel fun session channel => { session with channel }

/-- Enters something into the trace, if a recording is open. -/
def note (entry : Trace → Trace) : Action Error (Session σ) Unit :=
  Action.update fun session => { session with trace := session.trace.map entry }

/-- Opens a recording; there is one at a time. -/
def record : Action Error (Session σ) Unit := do
  let session ← get
  match session.trace with
  | some _ => throw .recordingOpen
  | none => Action.update fun session => { session with trace := some {} }

/-- The events of the open recording. -/
def events? (session : Session σ) : Option (List Event) := session.trace.map Trace.events

/-- Closes the recording, whether or not it compiles, and compiles its trace. -/
def finish : Action Error (Session σ) Program := do
  let session ← get
  Action.update fun session => { session with trace := none }
  Action.ofExcept (session.trace.getD {}).compile

/-- Closes the recording and forgets its trace. -/
def drop : Action Error (Session σ) Unit :=
  Action.update fun session => { session with trace := none }

/-- Keeps recorded writes before this point apart from later ones. -/
def barrier : Action Error (Session σ) Unit := note Trace.barrier

variable [Link σ]

def resync : Action Error (Session σ) Unit := onChannel Channel.resync

def clear : Action Error (Session σ) Unit := onChannel Channel.clear

end Session

end RegisterLink
