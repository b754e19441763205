import RegisterLink.Session.Wait

/-!
# Commands

Everything that can be asked of a session while it is open, as data, so that a
run of a session is a list.
-/

namespace RegisterLink

inductive Command where
  | read (register : Register)
  | write (register : Register) (value : Word)
  | reset (register : Register)
  | readField (field : Field)
  | writeField (field : Field) (value : Word)
  | resetField (field : Field)
  | readBits (address : Word) (width : Width) (mask : Word) (placement : Placement)
      (label : String)
  | writeBits (address : Word) (width : Width) (mask value : Word) (placement : Placement)
      (label : String)
  | awaitField (field : Field) (awaited : Word) (timeout : Nat)
  | resync
  | clear
  | barrier

namespace Session

variable {σ : Type} [Link σ] [Clock σ]

/-- An access that yields no value. -/
def silent (access : Action Error (Session σ) Unit) : Action Error (Session σ) (Option Word) := do
  access
  pure none

/-- Performs a command, with the value that it reads, if it reads one. -/
def perform : Command → Action Error (Session σ) (Option Word)
  | .read register => some <$> read register
  | .write register value => silent (write register value)
  | .reset register => silent (reset register)
  | .readField field => some <$> readField field
  | .writeField field value => silent (writeField field value)
  | .resetField field => silent (resetField field)
  | .readBits address width mask placement label =>
      some <$> readBits address width mask placement label
  | .writeBits address width mask value placement label =>
      silent (writeBits address width mask value placement label)
  | .awaitField field awaited timeout => silent (awaitField field awaited timeout)
  | .resync => silent resync
  | .clear => silent clear
  | .barrier => silent barrier

/-- The results of some commands, in order, and the session after them. -/
def performAll (session : Session σ) :
    List Command → List (Except Error (Option Word)) × Session σ
  | [] => ([], session)
  | command :: commands =>
      let (result, session) := perform command session
      let (results, session) := session.performAll commands
      (result :: results, session)

end Session

end RegisterLink
