import RegisterLink.Proofs.MaskedWrite
import RegisterLink.Proofs.Packets

/-!
# What the device does with what the host sends

What the device holds back, for itself or for the host, does not matter to how
it handles a packet, so it serves the packets that it is sent one by one.  The
host sends whole packets only.  A device that holds no part of a packet takes in
each of them completely, so it never holds a part of one: a marker is
acknowledged, a read answered, a write carried out.
-/

namespace RegisterLink

namespace Device

/-- The device after an answer, which is dropped while it is silenced. -/
def say (device : Device) (data : List Byte) : Device :=
  if device.silenced = 0 then { device with outbound := device.outbound ++ data }
  else { device with silenced := device.silenced - 1 }

variable {device : Device}

@[simp] theorem memory_say (data : List Byte) : (device.say data).memory = device.memory := by
  rw [say]; split <;> rfl

@[simp] theorem inbound_say (data : List Byte) : (device.say data).inbound = device.inbound := by
  rw [say]; split <;> rfl

@[simp] theorem requests_say (data : List Byte) :
    (device.say data).requests = device.requests := by
  rw [say]; split <;> rfl

/-- A device that keeps what it has just said until the host receives it. -/
def retain (spoken : List Byte × Device) : Device :=
  { spoken.2 with outbound := spoken.2.outbound ++ spoken.1 }

theorem retain_answer (device : Device) (data : List Byte) :
    retain (device.answer data) = device.say data := by
  simp only [retain, answer, say]
  split
  case isTrue => rfl
  case isFalse => rw [List.append_nil]

theorem retain_nil (device : Device) : retain ([], device) = device := by
  rw [retain, List.append_nil]

/-- The device after a packet. -/
def serve (device : Device) (packet : Packet) : Device := retain (device.handle packet)

/-- What a device holds back, for itself or for the host, does not matter to a packet. -/
theorem handle_buffers (device : Device) (packet : Packet) (inbound outbound : List Byte) :
    { device with inbound, outbound }.handle packet =
      ((device.handle packet).1, { (device.handle packet).2 with inbound, outbound }) := by
  cases packet with
  | marker =>
      simp only [handle, answer]
      split <;> rfl
  | frame bytes =>
      simp only [handle]
      split
      case h_1 request _ =>
        simp only [execute]
        split
        case h_1 =>
          simp only [answer]
          split <;> rfl
        case h_2 => rfl
      case h_2 => rfl

theorem handleAll_buffers (packets : List Packet) :
    ∀ (device : Device) (inbound outbound : List Byte),
      { device with inbound, outbound }.handleAll packets =
        ((device.handleAll packets).1,
          { (device.handleAll packets).2 with inbound, outbound }) := by
  induction packets with
  | nil => intro device inbound outbound; rfl
  | cons packet packets ih =>
      intro device inbound outbound
      have first := handle_buffers device packet inbound outbound
      have rest := ih (device.handle packet).2 inbound outbound
      simp only [handleAll, first, rest]

/-- Handling packets touches nothing of what the device held back before. -/
theorem buffers_handleAll (packets : List Packet) (device : Device) :
    (device.handleAll packets).2.inbound = device.inbound ∧
      (device.handleAll packets).2.outbound = device.outbound := by
  have same := handleAll_buffers packets device device.inbound device.outbound
  exact ⟨congrArg (·.2.inbound) same, congrArg (·.2.outbound) same⟩

/-- Handling packets in one go is serving them one by one. -/
theorem retain_handleAll (packets : List Packet) : ∀ device : Device,
    retain (device.handleAll packets) = packets.foldl serve device := by
  induction packets with
  | nil =>
      intro device
      exact retain_nil device
  | cons packet packets ih =>
      intro device
      let spoken := device.handle packet
      have rest := handleAll_buffers packets spoken.2 spoken.2.inbound
        (spoken.2.outbound ++ spoken.1)
      obtain ⟨inbound, outbound⟩ := buffers_handleAll packets spoken.2
      rw [List.foldl_cons, ← ih]
      change _ = retain (handleAll { spoken.2 with
        inbound := spoken.2.inbound, outbound := spoken.2.outbound ++ spoken.1 } packets)
      rw [rest, handleAll]
      simp only [retain, inbound, outbound, List.append_assoc, spoken]

/-- A device serves the packets that its bytes make up, and holds on to the rest. -/
theorem feed_eq (device : Device) (data : List Byte) :
    device.feed data =
      (Packet.split (device.inbound ++ data)).1.foldl serve
        { device with inbound := (Packet.split (device.inbound ++ data)).2 } := by
  rw [← retain_handleAll]
  rfl

theorem eq_of_idle (idle : device.inbound = []) : { device with inbound := [] } = device := by
  cases device
  cases idle
  rfl

/-- Feeding one packet to a device that holds no part of another is serving it. -/
theorem feed_packet (idle : device.inbound = []) {data : List Byte} {packet : Packet}
    (whole : Packet.split data = ([packet], [])) : device.feed data = device.serve packet := by
  rw [feed_eq, idle, List.nil_append, whole, eq_of_idle idle]
  rfl

theorem feed_marker (idle : device.inbound = []) :
    device.feed Handshake.marker =
      { device with syncs := device.syncs + 1 }.say Handshake.acknowledgement := by
  rw [feed_packet idle Packet.split_marker_alone]
  exact retain_answer _ _

/-- A request is executed as soon as its frame is sent. -/
theorem feed_request (idle : device.inbound = []) (request : Request) :
    device.feed (Envelope.frame request.encode) = retain (device.execute request.canonical) := by
  have small := request.length_encode_le
  have whole : Packet.split (Envelope.frame request.encode) =
      ([.frame (Envelope.frame request.encode)], []) := by
    have split := Packet.split_frame small []
    rwa [List.append_nil, Packet.split_nil] at split
  have handled : device.handle (.frame (Envelope.frame request.encode)) =
      device.execute request.canonical := by
    simp only [handle, Packet.request?_frame small, Request.decode?_encode]
  rw [feed_packet idle whole, serve, handled]

/-- A read is answered with the part of the word that it covers. -/
theorem feed_read (idle : device.inbound = []) (address : Word) (width : Width) :
    device.feed (Envelope.frame (Request.read address width).encode) =
      { device with requests := device.requests + 1 }.say
        (Envelope.frame (width.toBytes (device.peek address))) := by
  rw [feed_request idle, ← retain_answer]
  simp only [Request.read, Request.canonical, Operation.canonical, execute, peek,
    Address.index_ofIndex]

/-- The device after a write: one more request, and the word at the address written. -/
def write (device : Device) (address : Word) (width : Width) (mask value : Word) : Device :=
  { device with requests := device.requests + 1 }.poke address
    (maskedWrite (width.reach mask) value (device.peek address))

theorem memory_write (device : Device) (address : Word) (width : Width) (mask value : Word) :
    (device.write address width mask value).memory =
      fun index =>
        if index = Address.index address then
          maskedWrite (width.reach mask) value (device.memory index)
        else device.memory index := by
  funext index
  simp only [write, poke, peek]
  split
  case isTrue same => rw [same]
  case isFalse => rfl

theorem execute_write (device : Device) (address : Word) (width : Width) (mask value : Word) :
    device.execute (Request.write address width mask value) =
      ([], device.write address width mask value) := by
  rw [write, ← Operation.apply_write, execute, Request.write]
  cases chosen : Operation.write width mask value with
  | load read => exact absurd chosen (Operation.write_ne_load width mask value read)
  | _ => rfl

theorem write_ofIndex (device : Device) (address : Word) (width : Width) (mask value : Word) :
    device.write (Address.ofIndex (Address.index address)) width mask value =
      device.write address width mask value := by
  simp only [write, peek, poke, Address.index_ofIndex]

/-- A write is carried out without an answer. -/
theorem feed_write (idle : device.inbound = []) (address : Word) (width : Width)
    (mask value : Word) :
    device.feed (Envelope.frame (Request.write address width mask value).encode) =
      device.write address width mask value := by
  have sent : (Request.write address width mask value).canonical =
      .write (Address.ofIndex (Address.index address)) width mask value := by
    rw [Request.canonical, Request.write, Operation.canonical_write]
    rfl
  rw [feed_request idle, sent, execute_write, write_ofIndex, retain_nil]

/-- Sending pieces one by one feeds the device with each in turn. -/
theorem send_pieces (pieces : List (List Byte)) : ∀ device : Device,
    List.forM pieces Link.send device = (.ok (), pieces.foldl feed device) := by
  induction pieces with
  | nil => intro device; rfl
  | cons piece pieces ih =>
      intro device
      exact ih (device.feed piece)

end Device

end RegisterLink
