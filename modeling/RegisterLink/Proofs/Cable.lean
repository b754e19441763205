import RegisterLink.Proofs.Channel

/-!
# A cable with a will of its own

A cable stands between a session and a device, and at every call something may
happen to it: the call fails before it reaches the device, a receive is cut
short and leaves the rest unread, received bits are flipped, time passes, and
the device is meddled with.  What is to happen is given in advance, call by
call; after that nothing does.
-/

namespace RegisterLink

/-- What others may do to a device. -/
inductive Upset where
  | silence (count : Nat)
  | poke (address value : Word)
  deriving DecidableEq

def Upset.apply (device : Device) : Upset → Device
  | silence count => device.silence count
  | poke address value => device.poke address value

/-- What happens at one call. -/
structure Moment where
  /-- Happen before anything else. -/
  upsets : List Upset := []
  /-- The call fails and is not passed on. -/
  failure : Option LinkFailure := none
  /-- The most that a receive is let through. -/
  cut : Option Nat := none
  /-- The bits flipped in each received byte, in order. -/
  noise : List Byte := []
  /-- How long the call takes. -/
  delay : Nat := 0

namespace Moment

/-- Nothing happens, except that time may pass. -/
structure Quiet (moment : Moment) : Prop where
  upsets : moment.upsets = []
  failure : moment.failure = none
  cut : moment.cut = none
  noise : moment.noise = []

end Moment

structure Cable where
  device : Device
  clock : Nat := 0
  /-- What happens at the next calls. -/
  ahead : List Moment := []

namespace Cable

variable {α : Type}

/-- Passes a call on to the device, as far as the moment allows. -/
def pass (call : Moment → Action LinkFailure Device α) : Action LinkFailure Cable α :=
  fun cable =>
    let moment := cable.ahead.headD {}
    let device := moment.upsets.foldl Upset.apply cable.device
    let (result, device) :=
      match moment.failure with
      | some failure => (.error failure, device)
      | none => call moment device
    (result, { device, clock := cable.clock + moment.delay, ahead := cable.ahead.tail })

/-- Received bytes after some of their bits were flipped. -/
def disturb : (noise received : List Byte) → List Byte
  | bits :: noise, byte :: received => (byte ^^^ bits) :: disturb noise received
  | _, received => received

instance : Link Cable where
  send data := pass fun _ => Link.send data
  receive size timeout := pass fun moment => do
    let received ← Link.receive ((moment.cut.map (min · size)).getD size) timeout
    pure (disturb moment.noise received)
  discard := pass fun _ => Link.discard

instance : Clock Cable where
  now := clock
  advance time cable := { cable with clock := cable.clock + time }

/-- Nothing but the passing of time is to happen to the cable. -/
def Quiet (cable : Cable) : Prop := ∀ moment ∈ cable.ahead, moment.Quiet

/-- A cable with nothing left to happen is quiet. -/
theorem quiet_spent {cable : Cable} (spent : cable.ahead = []) : cable.Quiet := by
  rw [Quiet, spent]
  exact fun _ member => nomatch member

/-- A quiet cable passes every call on, and stays quiet. -/
theorem pass_quiet {cable : Cable} (quiet : cable.Quiet)
    (call : Moment → Action LinkFailure Device α) :
    ∃ moment reached, moment.Quiet ∧
      pass call cable = ((call moment cable.device).1, reached) ∧
      reached.Quiet ∧ reached.device = (call moment cable.device).2 := by
  have calm : (cable.ahead.headD {}).Quiet := by
    cases ahead : cable.ahead with
    | nil => exact ⟨rfl, rfl, rfl, rfl⟩
    | cons moment rest => exact quiet moment (ahead ▸ List.mem_cons_self)
  have rest : ∀ moment ∈ cable.ahead.tail, moment.Quiet :=
    fun moment member => quiet moment (List.mem_of_mem_tail member)
  let moment := cable.ahead.headD {}
  let called := call moment cable.device
  refine ⟨moment, ⟨called.2, cable.clock + moment.delay, cable.ahead.tail⟩, calm, ?_, rest, rfl⟩
  simp only [pass, calm.upsets, calm.failure, List.foldl_nil, called, moment]

theorem carries : Carries device Quiet where
  send data _ quiet := by
    obtain ⟨moment, reached, _, passed, calm, there⟩ := pass_quiet quiet fun _ => Link.send data
    exact ⟨reached, passed, calm, there⟩
  receive size timeout _ quiet := by
    obtain ⟨moment, reached, still, passed, calm, there⟩ := pass_quiet quiet fun moment => do
      let received ← Link.receive ((moment.cut.map (min · size)).getD size) timeout
      pure (disturb moment.noise received)
    simp only [still.cut, still.noise] at passed there
    exact ⟨reached, passed, calm, there⟩
  discard {_} quiet := by
    obtain ⟨moment, reached, _, passed, calm, there⟩ := pass_quiet quiet fun _ => Link.discard
    exact ⟨reached, passed, calm, there⟩

end Cable

end RegisterLink
