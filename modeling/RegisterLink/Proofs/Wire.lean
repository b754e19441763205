import RegisterLink.Envelope
import RegisterLink.Proofs.MaskedWrite
import RegisterLink.Proofs.Width
import RegisterLink.Request.Codec

/-!
# What arrives of a request

A frame opens to its content, and the content of an encoded request decodes to
the request as the wire leaves it: at the address of its word, a stored value
cut to its width and a replacement to its mask.
-/

namespace RegisterLink

namespace Operation

/-- What the wire leaves of an operation. -/
def canonical : Operation → Operation
  | store width value => store width (value &&& width.mask)
  | modify mask value => modify mask (value &&& mask)
  | operation => operation

/-- The operation chosen for a write travels as it is. -/
theorem canonical_write (width : Width) (mask value : Word) :
    (write width mask value).canonical = write width mask value := by
  have narrow (narrow : Width) : (store narrow (value &&& narrow.mask)).canonical =
      store narrow (value &&& narrow.mask) := by
    rw [canonical, BitVec.and_assoc, BitVec.and_self]
  cases width with
  | byte => exact narrow .byte
  | half => exact narrow .half
  | word =>
      rw [write]
      cases chosen : Idiom.cheapest mask value with
      | overwrite => exact congrArg (store .word) (Width.and_mask_word value)
      | modify replaced replacement =>
          obtain ⟨rfl, rfl⟩ := Idiom.eq_of_cheapest_modify chosen
          simp only [canonical, BitVec.and_comm replaced value, BitVec.and_assoc, BitVec.and_self]
      | _ => rfl

theorem ofPayload?_payload (operation : Operation) :
    ofPayload? operation.flags operation.payload = some operation.canonical := by
  cases operation with
  | load width => cases width <;> rfl
  | store width value =>
      have back := Width.ofBytes_toBytes width value
      cases width <;> exact congrArg (fun value => some (store _ value)) back
  | setBit position => simp [ofPayload?, flags, payload, canonical, ofLittleEndian]
  | clearBit position => simp [ofPayload?, flags, payload, canonical, ofLittleEndian]
  | setMask mask =>
      change some (setMask (Width.word.ofBytes (Width.word.toBytes mask))) = some (setMask mask)
      rw [Width.ofBytes_toBytes, Width.and_mask_word]
  | clearMask mask =>
      change some (clearMask (~~~Width.word.ofBytes (Width.word.toBytes (~~~mask)))) =
        some (clearMask mask)
      rw [Width.ofBytes_toBytes, Width.and_mask_word, BitVec.not_not]
  | modify mask value =>
      change
        some (modify (Width.word.ofBytes (_ ++ _)) (Width.word.ofBytes (Width.word.toBytes _))) =
          some (modify mask (value &&& mask))
      rw [Width.ofBytes_toBytes_append, Width.ofBytes_toBytes, Width.and_mask_word,
        Width.and_mask_word]

theorem length_payload_le (operation : Operation) : operation.payload.length ≤ 8 := by
  cases operation with
  | store width value =>
      rw [payload, Width.length_toBytes]
      exact Nat.le_trans width.bytes_le (by decide)
  | _ => simp [payload, Width.bytes]

end Operation

namespace Header

@[simp] theorem length_toBytes (order : ByteOrder) (header : Header) :
    (header.toBytes order).length = size := by
  cases order <;> simp [toBytes, ByteOrder.bytes, size]

/-- A header is read back whatever follows it. -/
theorem ofBytes_toBytes_append (order : ByteOrder) (header : Header) (rest : List Byte) :
    ofBytes order (header.toBytes order ++ rest) = header := by
  have first : (order.bytes 2 header.sentinel.toNat).length = 2 := by
    cases order <;> simp [ByteOrder.bytes]
  have second : (order.bytes 4 header.address.toWord.toNat).length = 4 := by
    cases order <;> simp [ByteOrder.bytes]
  rw [ofBytes, toBytes, List.append_assoc, List.take_left' first, List.drop_left' first,
    List.take_left' second, ByteOrder.number_bytes, ByteOrder.number_bytes,
    Nat.mod_eq_of_lt (show _ < 256 ^ 2 from header.sentinel.isLt),
    Nat.mod_eq_of_lt (show _ < 256 ^ 4 from header.address.toWord.isLt), BitVec.ofNat_toNat,
    BitVec.ofNat_toNat, BitVec.setWidth_eq, BitVec.setWidth_eq, TaggedAddress.ofWord_toWord]

end Header

namespace Request

def canonical (request : Request) : Request :=
  ⟨Address.ofIndex (Address.index request.address), request.operation.canonical⟩

theorem length_encode (request : Request) :
    request.encode.length = Header.size + request.operation.payload.length := by
  rw [encode, List.length_append, Header.length_toBytes]

theorem length_encode_le (request : Request) : request.encode.length ≤ maxSize := by
  rw [length_encode]
  exact Nat.add_le_add_left request.operation.length_payload_le _

/-- No request is larger on the wire than a modify. -/
theorem length_frame_le (request : Request) : (Envelope.frame request.encode).length ≤ 18 := by
  rw [Envelope.length_frame]
  exact Nat.add_le_add_right request.length_encode_le _

theorem decode?_encode (request : Request) : decode? request.encode = some request.canonical := by
  have long : ¬ request.encode.length < Header.size := by
    rw [length_encode]
    exact Nat.not_lt_of_le (Nat.le_add_right _ _)
  have payload : request.encode.drop Header.size = request.operation.payload :=
    List.drop_left' (Header.length_toBytes _ _)
  rw [decode?, if_neg long, payload, encode, Header.ofBytes_toBytes_append]
  change (Operation.ofPayload? request.operation.flags request.operation.payload).map _ = _
  rw [Operation.ofPayload?_payload]
  rfl

end Request

namespace Envelope

/-- A frame begins with the size of its content. -/
theorem take_frame (content : List Byte) :
    (frame content).take 2 = littleEndian 2 content.length := by
  rw [frame, List.append_assoc, List.take_left' (length_littleEndian _ _)]

theorem drop_frame (content : List Byte) :
    (frame content).drop 2 = content ++ littleEndian 2 (checksum content).toNat := by
  rw [frame, List.append_assoc, List.drop_left' (length_littleEndian _ _)]

theorem contents_frame {content : List Byte} (small : content.length ≤ maxContent) :
    contents content.length (frame content) = .ok content := by
  have size : ofLittleEndian (littleEndian 2 content.length) = content.length := by
    rw [ofLittleEndian_littleEndian]
    exact Nat.mod_eq_of_lt (Nat.lt_succ_of_le small)
  have sum : ofLittleEndian (littleEndian 2 (checksum content).toNat) =
      (checksum content).toNat := by
    rw [ofLittleEndian_littleEndian]
    exact Nat.mod_eq_of_lt (checksum content).isLt
  have nonempty : ¬ content.length + overhead = 0 := Nat.succ_ne_zero _
  simp only [contents, length_frame, nonempty, take_frame, drop_frame, size, sum,
    List.take_left, List.drop_left, if_false, if_true, ne_eq, not_true_eq_false]

theorem frame_inj {content other : List Byte} (small : content.length ≤ maxContent)
    (same : frame content = frame other) : content = other := by
  have length : content.length = other.length := by
    have whole := congrArg List.length same
    rw [length_frame, length_frame] at whole
    exact Nat.add_right_cancel whole
  have opened := contents_frame small
  rw [same, length, contents_frame (length ▸ small)] at opened
  injection opened with back
  exact back.symm

/-- Nothing opens but the frame of what it opens to. -/
theorem frame_of_contents {expected : Nat} {received content : List Byte}
    (opened : contents expected received = .ok content) :
    content.length = expected ∧ received = frame content := by
  simp only [contents] at opened
  split at opened
  case isTrue => cases opened
  split at opened
  case isTrue => cases opened
  rename_i size
  split at opened
  case isTrue => cases opened
  rename_i declared
  split at opened
  case isFalse => cases opened
  rename_i sum
  simp only [ne_eq, Decidable.not_not, overhead] at size declared
  injection opened with inside
  rw [inside] at sum
  have length : content.length = expected := by
    rw [← inside, List.length_take, List.length_drop]
    omega
  have first : littleEndian 2 content.length = received.take 2 := by
    have digits := littleEndian_ofLittleEndian (received.take 2)
    rwa [List.length_take, Nat.min_eq_left (by omega), declared, ← length] at digits
  have last : littleEndian 2 (checksum content).toNat = (received.drop 2).drop expected := by
    have digits := littleEndian_ofLittleEndian ((received.drop 2).drop expected)
    rwa [List.length_drop, List.length_drop, show received.length - 2 - expected = 2 by omega,
      ← sum] at digits
  refine ⟨length, ?_⟩
  rw [frame, first, last, ← inside, List.append_assoc, List.take_append_drop,
    List.take_append_drop]

end Envelope

end RegisterLink
