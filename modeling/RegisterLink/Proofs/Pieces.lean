import RegisterLink.Proofs.Device

/-!
# Streams cut into pieces

A stream of markers and frames may reach the device in any pieces, cut anywhere.
After each piece the device has handled the items that are complete and holds
the beginning of the next one, so in the end it has handled all of them, one
after the other, and holds nothing.
-/

namespace RegisterLink

/-- What a stream is made of: markers, and frames of a size that a device takes around anything. -/
inductive Item where
  | marker
  | frame (size : Nat) (body : List Byte) (small : size ≤ Request.maxSize)
      (whole : body.length = size + 2)

namespace Item

def bytes : Item → List Byte
  | marker => Handshake.marker
  | frame size body _ _ => littleEndian 2 size ++ body

/-- The bytes of some items, one after the other. -/
def stream (items : List Item) : List Byte := (items.map bytes).flatten

/-- The request in an item: that of a frame whose checksum holds and whose content decodes. -/
def request? : Item → Option Request
  | marker => none
  | frame size body _ _ =>
      if (checksum (body.take size)).toNat = ofLittleEndian (body.drop size) then
        Request.decode? (body.take size)
      else none

def packet : Item → Packet
  | marker => .marker
  | frame size body _ _ => .frame (littleEndian 2 size ++ body)

theorem stream_cons (item : Item) (items : List Item) :
    stream (item :: items) = item.bytes ++ stream items := rfl

theorem framed {size : Nat} {body : List Byte} (small : size ≤ Request.maxSize)
    (whole : body.length = size + 2) : Envelope.Framed size (littleEndian 2 size ++ body) :=
  Envelope.framed_header (Nat.le_trans small (by decide)) whole

theorem split_item (item : Item) (rest : List Byte) :
    Packet.split (item.bytes ++ rest) =
      (item.packet :: (Packet.split rest).1, (Packet.split rest).2) := by
  cases item with
  | marker => exact Packet.split_marker rest
  | frame size body small whole => exact Packet.split_framed (framed small whole) small rest

/-- The device finds in a frame what the item holds. -/
theorem request?_packet (item : Item) : item.packet.request? = item.request? := by
  cases item with
  | marker => rfl
  | frame size body small whole =>
      have framed := framed small whole
      have inside : (littleEndian 2 size ++ body).drop 2 = body :=
        List.drop_left' (length_littleEndian _ _)
      rw [packet, Packet.request?, framed.size, Nat.add_sub_cancel,
        Envelope.contents_framed framed, inside, request?]
      by_cases intact : (checksum (body.take size)).toNat = ofLittleEndian (body.drop size)
      · rw [if_pos intact, if_pos intact]
      · rw [if_neg intact, if_neg intact]

/-- Some bytes of an item, but not all of them, are the beginning of a packet. -/
theorem partial_of_short {item : Item} {first rest more : List Byte}
    (cut : first ++ rest = item.bytes ++ more) (short : first.length < item.bytes.length) :
    Packet.Partial first := by
  by_cases few : first.length < 2
  · exact .inl few
  cases item with
  | marker => exact absurd short few
  | frame size body small whole =>
      have within : size ≤ Envelope.maxContent := Nat.le_trans small (by decide)
      have declared : Envelope.declared first = size := by
        have same := congrArg Envelope.declared cut
        rw [Envelope.declared_append (Nat.le_of_not_lt few), bytes, List.append_assoc,
          Envelope.declared_header within] at same
        exact same
      rw [bytes, List.length_append, length_littleEndian, whole] at short
      refine .inr ⟨declared ▸ small, ?_⟩
      rw [declared, Envelope.overhead]
      omega

theorem split_stream (items : List Item) :
    Packet.split (stream items) = (items.map packet, []) := by
  induction items with
  | nil => exact Packet.split_nil
  | cons item items ih => rw [stream_cons, split_item, ih, List.map_cons]

/--
Wherever a stream is cut, the packets of the first piece are those of the items
that lie in it completely, and what is left over joins on to the other items.
-/
theorem split_cut (items : List Item) :
    ∀ {first rest : List Byte}, first ++ rest = stream items →
      ∃ done later, items = done ++ later ∧ (Packet.split first).1 = done.map packet ∧
        (Packet.split first).2 ++ rest = stream later := by
  induction items with
  | nil =>
      intro first rest cut
      obtain ⟨rfl, rfl⟩ := List.append_eq_nil_iff.mp cut
      exact ⟨[], [], rfl, by rw [Packet.split_nil]; rfl, by rw [Packet.split_nil]; rfl⟩
  | cons item items ih =>
      intro first rest cut
      rw [stream_cons] at cut
      by_cases short : first.length < item.bytes.length
      · have part := Packet.split_partial (partial_of_short cut short)
        exact ⟨[], item :: items, rfl, by rw [part]; rfl, by rw [part]; exact cut⟩
      · obtain ⟨more, rfl⟩ : item.bytes <+: first :=
          List.prefix_of_prefix_length_le ⟨_, rfl⟩ ⟨_, cut⟩ (Nat.le_of_not_lt short)
        rw [List.append_assoc] at cut
        obtain ⟨done, later, rfl, packets, left⟩ := ih (List.append_cancel_left cut)
        refine ⟨item :: done, later, rfl, ?_, ?_⟩
        · rw [split_item, packets]
          rfl
        · rw [split_item]
          exact left

end Item

namespace Device

/-- The device after a request that it executes. -/
def obey (device : Device) (request : Request) : Device :=
  let counted := { device with requests := device.requests + 1 }
  let word := device.peek request.address
  match request.operation with
  | .load width => counted.say (Envelope.frame (width.toBytes word))
  | operation => counted.poke request.address (operation.apply word)

/-- The device after an item of a stream. -/
def heed (device : Device) : Item → Device
  | .marker => { device with syncs := device.syncs + 1 }.say Handshake.acknowledgement
  | item =>
      match item.request? with
      | some request => device.obey request
      | none => device

theorem execute_eq (device : Device) (request : Request) :
    retain (device.execute request) = device.obey request := by
  obtain ⟨address, operation⟩ := request
  cases operation with
  | load width => exact retain_answer _ _
  | _ => exact retain_nil _

theorem serve_packet (device : Device) (item : Item) :
    device.serve item.packet = device.heed item := by
  cases item with
  | marker => exact retain_answer _ _
  | frame size body small whole =>
      have found := Item.request?_packet (.frame size body small whole)
      rw [Item.packet] at found
      cases held : (Item.frame size body small whole).request? with
      | some request =>
          simp only [serve, Item.packet, handle, heed, found, held]
          exact execute_eq device request
      | none =>
          simp only [serve, Item.packet, handle, heed, found, held]
          exact retain_nil device

theorem obey_inbound (device : Device) (request : Request) (inbound : List Byte) :
    obey { device with inbound } request = { device.obey request with inbound } := by
  simp only [obey]
  split
  case h_1 =>
    simp only [say]
    split <;> rfl
  case h_2 => rfl

theorem heed_inbound (device : Device) (item : Item) (inbound : List Byte) :
    heed { device with inbound } item = { device.heed item with inbound } := by
  cases item with
  | marker =>
      simp only [heed, say]
      split <;> rfl
  | frame size body small whole =>
      simp only [heed]
      split
      case h_1 request _ => exact obey_inbound device request inbound
      case h_2 => rfl

theorem heedAll_inbound (items : List Item) : ∀ (device : Device) (inbound : List Byte),
    items.foldl heed { device with inbound } = { items.foldl heed device with inbound } := by
  induction items with
  | nil => intro device inbound; rfl
  | cons item items ih =>
      intro device inbound
      rw [List.foldl_cons, heed_inbound, ih, List.foldl_cons]

/-- One piece of a stream: the items that it completes are handled, and the next one begun. -/
theorem feed_piece {device : Device} {piece rest : List Byte} {items : List Item}
    (cut : device.inbound ++ piece ++ rest = Item.stream items) :
    ∃ done later left, items = done ++ later ∧ Packet.Partial left ∧
      left ++ rest = Item.stream later ∧
      device.feed piece = { done.foldl heed device with inbound := left } := by
  obtain ⟨done, later, all, packets, left⟩ := Item.split_cut items cut
  refine ⟨done, later, _, all, Packet.partial_split _, left, ?_⟩
  rw [feed_eq, packets, ← heedAll_inbound, List.foldl_map]
  simp only [serve_packet]

/-- A stream in any pieces, of which the device already holds the beginning. -/
theorem feed_pieces (pieces : List (List Byte)) : ∀ {device : Device} {items : List Item},
    Packet.Partial device.inbound → device.inbound ++ pieces.flatten = Item.stream items →
      pieces.foldl feed device = { items.foldl heed device with inbound := [] } := by
  induction pieces with
  | nil =>
      intro device items part all
      rw [List.flatten_nil, List.append_nil] at all
      rw [all] at part
      have none := (Item.split_stream items).symm.trans (Packet.split_partial part)
      rw [Prod.mk.injEq, List.map_eq_nil_iff] at none
      obtain ⟨rfl, _⟩ := none
      exact congrArg (fun inbound => { device with inbound }) all
  | cons piece pieces ih =>
      intro device items part all
      rw [List.flatten_cons, ← List.append_assoc] at all
      obtain ⟨done, later, left, rfl, part, rest, fed⟩ := feed_piece all
      rw [List.foldl_cons, fed, ih part rest, heedAll_inbound, List.foldl_append]

/--
A device that holds no part of a packet makes the same of a stream however it is
cut: it handles the items one after the other and holds no part of a packet.
-/
theorem send_stream {device : Device} (idle : device.inbound = []) (items : List Item)
    (pieces : List (List Byte)) (cut : pieces.flatten = Item.stream items) :
    List.forM pieces Link.send device = (.ok (), items.foldl heed device) ∧
      (items.foldl heed device).inbound = [] := by
  have part : Packet.Partial device.inbound := idle ▸ .inl (by decide)
  have all : device.inbound ++ pieces.flatten = Item.stream items := by
    rw [idle, List.nil_append, cut]
  have kept : items.foldl heed device = { items.foldl heed device with inbound := [] } := by
    rw [← heedAll_inbound, eq_of_idle idle]
  constructor
  · rw [send_pieces, feed_pieces pieces part all, ← kept]
  · exact congrArg inbound kept

/-- A marker, a write, the same write with its checksum spoiled, and a read. -/
def assorted : List Item :=
  [.marker,
    .frame 7 [0x5f, 0x3a, 0x05, 0x00, 0x00, 0x20, 0x2a, 0x69, 0x69] (by decide) rfl,
    .frame 7 [0x5f, 0x3a, 0x05, 0x00, 0x00, 0x20, 0x2b, 0x69, 0x69] (by decide) rfl,
    .frame 6 [0x5f, 0x3a, 0x05, 0x00, 0x00, 0x20, 0xf0, 0x67] (by decide) rfl]

/-- Their bytes, cut in the marker, in a size and in two checksums. -/
def scattered : List (List Byte) :=
  [[0x55], [], [0xaa, 0x07], [0x00, 0x5f, 0x3a, 0x05, 0x00, 0x00, 0x20, 0x2a, 0x69],
    [0x69, 0x07, 0x00, 0x5f, 0x3a], [0x05, 0x00, 0x00, 0x20, 0x2b, 0x69, 0x69, 0x06, 0x00],
    [0x5f, 0x3a, 0x05, 0x00, 0x00, 0x20, 0xf0], [0x67]]

theorem send_stream_scattered :
    scattered.flatten = Item.stream assorted ∧
      ∃ device : Device,
        List.forM scattered Link.send { outbound := [0x01], silenced := 1 } = (.ok (), device) ∧
        device.inbound = [] ∧ device.syncs = 1 ∧ device.requests = 2 ∧ device.silenced = 0 ∧
        device.peek 0x20000004 = 0x2a ∧ device.outbound = 0x01 :: Envelope.frame [0x2a] := by
  have cut : scattered.flatten = Item.stream assorted := by decide
  have idle : ({ outbound := [0x01], silenced := 1 } : Device).inbound = [] := rfl
  obtain ⟨sent, done⟩ := send_stream idle assorted scattered cut
  exact ⟨cut, _, sent, done, by decide +kernel, by decide +kernel, by decide +kernel,
    by decide +kernel, by decide +kernel⟩

end Device

end RegisterLink
