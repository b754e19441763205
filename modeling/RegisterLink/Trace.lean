import RegisterLink.Width

/-!
# Traces

A trace holds the logical accesses of a session in the order they were made.
Polling appears in it as a bracket: the reads made while a wait is open are not
recorded, its other accesses are.  A wait that succeeds closes its bracket, one
that fails takes its opening back.
-/

namespace RegisterLink

inductive Event where
  | read (address : Word) (width : Width) (label : String)
  /-- The value is positioned in the register; only a word write is restricted to the mask. -/
  | write (address : Word) (width : Width) (mask value : Word) (label : String)
  | waitBegin
  /-- The bits under the mask reached the right-aligned value. -/
  | waitEnd (address mask value : Word) (label : String)
  /-- Nothing is merged across a barrier. -/
  | barrier
  deriving DecidableEq

structure Trace where
  events : List Event := []
  /-- A wait is open. -/
  waiting : Bool := false
  deriving DecidableEq

namespace Trace

def push (trace : Trace) (event : Event) : Trace :=
  { trace with events := trace.events ++ [event] }

def read (trace : Trace) (address : Word) (width : Width) (label : String) : Trace :=
  if trace.waiting then trace else trace.push (.read address width label)

def write (trace : Trace) (address : Word) (width : Width) (mask value : Word)
    (label : String) : Trace :=
  trace.push (.write address width mask value label)

def barrier (trace : Trace) : Trace := trace.push .barrier

def beginWait (trace : Trace) : Trace := { trace.push .waitBegin with waiting := true }

def endWait (trace : Trace) (address mask value : Word) (label : String) : Trace :=
  { trace.push (.waitEnd address mask value label) with waiting := false }

/-- Closes an open wait that never reached its value, forgetting the latest opening. -/
def abortWait (trace : Trace) : Trace :=
  if trace.waiting then
    { events := (trace.events.reverse.erase .waitBegin).reverse, waiting := false }
  else trace

/-- What can be asked of a trace, one constructor for each way to extend it. -/
inductive Call where
  | read (address : Word) (width : Width) (label : String)
  | write (address : Word) (width : Width) (mask value : Word) (label : String)
  | barrier
  | beginWait
  | endWait (address mask value : Word) (label : String)
  | abortWait

def perform (trace : Trace) : Call → Trace
  | .read address width label => trace.read address width label
  | .write address width mask value label => trace.write address width mask value label
  | .barrier => trace.barrier
  | .beginWait => trace.beginWait
  | .endWait address mask value label => trace.endWait address mask value label
  | .abortWait => trace.abortWait

/-- The trace left by some calls, in order. -/
def performAll (trace : Trace) (calls : List Call) : Trace := calls.foldl perform trace

theorem performAll_append (trace : Trace) (first second : List Call) :
    trace.performAll (first ++ second) = (trace.performAll first).performAll second :=
  List.foldl_append

end Trace

end RegisterLink
