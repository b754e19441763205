import RegisterLink.Envelope
import RegisterLink.Link
import RegisterLink.Request.Codec

/-!
# Device

A device in process, for use without hardware.  It cuts the bytes it is sent
into markers and frames, acknowledges markers, executes the frames that hold a
valid request, and drops the others without a word.  What it says waits until it
is received; nothing more comes while the host waits.
-/

namespace RegisterLink

/-- What the device makes out in the bytes sent to it. -/
inductive Packet where
  | marker
  | frame (bytes : List Byte)
  deriving DecidableEq

namespace Packet

/--
The complete packets at the front of some bytes, and the bytes left over.  A size
beyond the largest request can only mean lost alignment, and drops everything.
-/
def split (bytes : List Byte) : List Packet × List Byte :=
  match bytes with
  | low :: high :: rest =>
      if [low, high] = Handshake.marker then
        let (packets, left) := split rest
        (marker :: packets, left)
      else
        let size := ofLittleEndian [low, high]
        if Request.maxSize < size then ([], [])
        else
          let body := rest.take (size + 2)
          if body.length < size + 2 then ([], bytes)
          else
            let (packets, left) := split (rest.drop (size + 2))
            (frame (low :: high :: body) :: packets, left)
  | _ => ([], bytes)
termination_by bytes.length
decreasing_by
  all_goals
    simp only [List.length_drop, List.length_cons]
    omega

/-- The request in a packet, if it is a frame that holds one. -/
def request? : Packet → Option Request
  | marker => none
  | frame bytes =>
      match Envelope.contents (bytes.length - Envelope.overhead) bytes with
      | .ok content => Request.decode? content
      | .error _ => none

end Packet

structure Device where
  memory : BitVec 30 → Word := fun _ => 0#32
  /-- Bytes sent to the device that do not make up a packet yet. -/
  inbound : List Byte := []
  /-- Bytes said by the device and not received yet. -/
  outbound : List Byte := []
  /-- How many answers are still to be dropped. -/
  silenced : Nat := 0
  /-- Requests executed. -/
  requests : Nat := 0
  /-- Markers seen. -/
  syncs : Nat := 0

namespace Device

/-- The word that contains an address. -/
def peek (device : Device) (address : Word) : Word :=
  device.memory (Address.index address)

def poke (device : Device) (address value : Word) : Device :=
  { device with
    memory := fun index => if index = Address.index address then value else device.memory index }

/-- Drops the next answers, responses and acknowledgements alike. -/
def silence (device : Device) (count : Nat) : Device := { device with silenced := count }

/-- What comes out of an answer, which a silenced device drops. -/
def answer (device : Device) (data : List Byte) : List Byte × Device :=
  if device.silenced = 0 then (data, device)
  else ([], { device with silenced := device.silenced - 1 })

def execute (device : Device) (request : Request) : List Byte × Device :=
  let device := { device with requests := device.requests + 1 }
  let word := device.peek request.address
  match request.operation with
  | .load width => device.answer (Envelope.frame (width.toBytes word))
  | operation => ([], device.poke request.address (operation.apply word))

def handle (device : Device) (packet : Packet) : List Byte × Device :=
  match packet with
  | .marker => { device with syncs := device.syncs + 1 }.answer Handshake.acknowledgement
  | packet =>
      match packet.request? with
      | some request => device.execute request
      | none => ([], device)

/-- Everything said about some packets, in order. -/
def handleAll (device : Device) : List Packet → List Byte × Device
  | [] => ([], device)
  | packet :: packets =>
      let (first, device) := device.handle packet
      let (rest, device) := device.handleAll packets
      (first ++ rest, device)

/-- Takes in bytes, whole packets or parts of them. -/
def feed (device : Device) (data : List Byte) : Device :=
  let (packets, left) := Packet.split (device.inbound ++ data)
  let (said, device) := { device with inbound := left }.handleAll packets
  { device with outbound := device.outbound ++ said }

instance : Link Device where
  send data := Action.update (feed · data)
  receive size _ := fun device =>
    (.ok (device.outbound.take size), { device with outbound := device.outbound.drop size })
  discard := Action.update fun device => { device with outbound := [] }

end Device

end RegisterLink
