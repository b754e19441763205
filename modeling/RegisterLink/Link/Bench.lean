import RegisterLink.Link

/-!
# Test bench

A bench stands between a session and its link.  On demand it fails calls before
they reach the link, cuts a receive short, flips bits of what was received, and
changes the link after a given number of receives.  Every receive and discard
takes one tick of the clock, whether it succeeds or not.
-/

namespace RegisterLink

inductive CallKind where
  | send
  | receive
  | discard
  deriving DecidableEq

/-- So many calls of one kind are to fail. -/
structure Fault where
  kind : CallKind
  count : Nat
  failure : LinkFailure

namespace Fault

/-- The failure of the first fault that still applies to a call, and the faults left after it. -/
def take? (kind : CallKind) : List Fault → Option (LinkFailure × List Fault)
  | [] => none
  | fault :: faults =>
      if fault.kind = kind ∧ 0 < fault.count then
        some (fault.failure, { fault with count := fault.count - 1 } :: faults)
      else
        (take? kind faults).map fun (failure, left) => (failure, fault :: left)

end Fault

/-- The byte at `place`, counted round and round through the received bytes, is changed. -/
structure Flip where
  place : Nat
  bits : Byte

namespace Flip

def apply (flip : Flip) (received : List Byte) : List Byte :=
  received.modify (flip.place % received.length) (· ^^^ flip.bits)

end Flip

structure Bench (σ : Type) where
  link : σ
  tick : Nat := 1
  faults : List Fault := []
  /-- The most that the next receive is let through. -/
  cut : Option Nat := none
  /-- What happens to the next received bytes. -/
  flip : Option Flip := none
  /-- Changes of the link, each after so many more receives; none after zero. -/
  changes : List (Nat × (σ → σ)) := []

namespace Bench

variable {σ α : Type}

/-- Passes a call on, unless a fault applies to it. -/
def call (kind : CallKind) (action : Action LinkFailure (Bench σ) α) :
    Action LinkFailure (Bench σ) α :=
  fun bench =>
    match Fault.take? kind bench.faults with
    | some (failure, faults) => (.error failure, { bench with faults })
    | none => action bench

def pass (action : Action LinkFailure σ α) : Action LinkFailure (Bench σ) α :=
  action.within link fun bench link => { bench with link }

/-- The size that a receive may have, using up a cut. -/
def limit (size : Nat) : Action LinkFailure (Bench σ) Nat :=
  fun bench =>
    match bench.cut with
    | some cut => (.ok (min cut size), { bench with cut := none })
    | none => (.ok size, bench)

/-- What arrives of some received bytes, using up a flip if there are any. -/
def disturb (received : List Byte) : Action LinkFailure (Bench σ) (List Byte) :=
  fun bench =>
    match received, bench.flip with
    | _ :: _, some flip => (.ok (flip.apply received), { bench with flip := none })
    | _, _ => (.ok received, bench)

/-- Follows an action by a change of the bench, whether it failed or not. -/
def afterwards (change : Bench σ → Bench σ) (action : Action LinkFailure (Bench σ) α) :
    Action LinkFailure (Bench σ) α :=
  fun bench =>
    let (result, reached) := action bench
    (result, change reached)

def elapse [Clock σ] (bench : Bench σ) : Bench σ :=
  { bench with link := Clock.advance bench.tick bench.link }

/-- Counts one receive, and makes the changes that waited for it. -/
def countReceive (bench : Bench σ) : Bench σ :=
  { bench with
    link := (bench.changes.filter (·.1 = 1)).foldl (fun link change => change.2 link) bench.link
    changes := (bench.changes.filter (1 < ·.1)).map fun change => (change.1 - 1, change.2) }

instance [Link σ] [Clock σ] : Link (Bench σ) where
  send data := call .send (pass (Link.send data))
  receive size timeout :=
    afterwards (countReceive ∘ elapse) <| call .receive do
      let received ← pass (Link.receive (← limit size) timeout)
      disturb received
  discard := afterwards elapse <| call .discard (pass Link.discard)

instance [Clock σ] : Clock (Bench σ) where
  now bench := Clock.now bench.link
  advance time bench := { bench with link := Clock.advance time bench.link }

end Bench

end RegisterLink
