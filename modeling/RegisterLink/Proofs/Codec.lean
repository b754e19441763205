import RegisterLink.Proofs.Bounds
import RegisterLink.Proofs.Wire

/-!
# What decodes, and to what

The flags and the size of its payload are all that a request's operation is told
by, in eleven rows.  A request that decodes has exactly one wire form, with one
exception: a replacement is decoded as it came, but sent restricted to its mask.
-/

namespace RegisterLink

namespace Address

/-- The address of the containing word is the address with its two low bits cleared. -/
theorem ofIndex_index_eq (address : Word) : ofIndex (index address) = address &&& ~~~3#32 := by
  apply BitVec.eq_of_getLsbD_eq
  intro k bound
  have three : 3#32 = (BitVec.allOnes 2).setWidth 32 := by decide
  rw [BitVec.getLsbD_and, BitVec.getLsbD_not, three, BitVec.getLsbD_setWidth,
    BitVec.getLsbD_allOnes]
  by_cases low : k < 2
  · simp [ofIndex, low, bound]
  · obtain ⟨k, rfl⟩ := Nat.exists_eq_add_of_le' (Nat.le_of_not_lt low)
    have high : k < 30 := by omega
    rw [getLsbD_ofIndex, index, BitVec.getLsbD_extractLsb', Nat.add_comm 2 k]
    simp [high, low, bound]

end Address

namespace Operation

/-- The dispatch table: the size of the payload and the flags, for each operation in turn. -/
def rows : List (Nat × Flags) :=
  [(0, .word), (0, .byte), (0, .half), (1, .byte), (2, .word), (4, .word), (1, .word), (1, .half),
    (4, .byte), (4, .half), (8, .word)]

theorem ofPayload?_isSome_iff (flags : Flags) (payload : List Byte) :
    (ofPayload? flags payload).isSome ↔ (payload.length, flags) ∈ rows := by
  fun_cases ofPayload? flags payload with
  | case12 =>
      simp only [rows]
      simp_all
  | _ size => simp [rows, size]

/-- A replacement with bits outside its mask. -/
def Spills : Operation → Prop
  | modify mask value => value &&& ~~~mask ≠ 0#32
  | _ => False

/-- The payload as it is read, which for a replacement need not be the payload as it is sent. -/
def written : Operation → List Byte
  | modify mask value => Width.word.toBytes mask ++ Width.word.toBytes value
  | operation => operation.payload

/-- A payload of one byte is that byte. -/
theorem position_of_length {payload : List Byte} (one : payload.length = 1) :
    [BitVec.ofNat 8 (ofLittleEndian payload)] = payload := by
  have digits := littleEndian_ofLittleEndian payload
  rwa [one] at digits

theorem written_of_ofPayload? {flags : Flags} {payload : List Byte} {operation : Operation}
    (chosen : ofPayload? flags payload = some operation) :
    operation.flags = flags ∧ operation.written = payload := by
  unfold ofPayload? at chosen
  split at chosen
  case h_12 => cases chosen
  all_goals
    rename_i size
    cases chosen
    refine ⟨rfl, ?_⟩
  case h_1 => exact (List.eq_nil_of_length_eq_zero size).symm
  case h_2 => exact (List.eq_nil_of_length_eq_zero size).symm
  case h_3 => exact (List.eq_nil_of_length_eq_zero size).symm
  case h_4 => exact Width.toBytes_ofBytes size
  case h_5 => exact position_of_length size
  case h_6 => exact position_of_length size
  case h_7 => exact Width.toBytes_ofBytes size
  case h_8 => exact Width.toBytes_ofBytes size
  case h_9 => exact Width.toBytes_ofBytes size
  case h_10 =>
    change Width.word.toBytes (~~~~~~Width.word.ofBytes payload) = payload
    rw [BitVec.not_not, Width.toBytes_ofBytes size]
  case h_11 =>
    have first : Width.word.bytes ≤ payload.length := by
      rw [size]
      decide
    have second : (payload.drop 4).length = Width.word.bytes := by
      rw [List.length_drop, size]
      rfl
    rw [written, Width.toBytes_ofBytes_take first, Width.toBytes_ofBytes second]
    exact List.take_append_drop 4 payload

/-- What is sent differs from what was read only for a replacement that spills. -/
theorem payload_eq_written_iff (operation : Operation) :
    operation.payload = operation.written ↔ ¬ operation.Spills := by
  cases operation with
  | modify mask value =>
      rw [payload, written, List.append_cancel_left_eq, Width.toBytes_word_inj, Spills, ne_eq,
        Decidable.not_not]
      simp only [BitVec.eq_of_getLsbD_eq_iff, BitVec.getLsbD_and, BitVec.getLsbD_not]
      grind
  | _ => simp [written, Spills]

end Operation

namespace Header

/-- The bytes that a header was read from are its bytes. -/
theorem toBytes_ofBytes (order : ByteOrder) {bytes : List Byte} (long : size ≤ bytes.length) :
    (ofBytes order bytes).toBytes order = bytes.take size := by
  have six : 6 ≤ bytes.length := long
  have first : (bytes.take 2).length = 2 := by
    rw [List.length_take]
    omega
  have second : ((bytes.drop 2).take 4).length = 4 := by
    rw [List.length_take, List.length_drop]
    omega
  have low := order.number_lt (bytes.take 2)
  have high := order.number_lt ((bytes.drop 2).take 4)
  have sentinel := order.bytes_number (bytes.take 2)
  have address := order.bytes_number ((bytes.drop 2).take 4)
  rw [first] at low sentinel
  rw [second] at high address
  rw [toBytes, ofBytes, TaggedAddress.toWord_ofWord, BitVec.toNat_ofNat, BitVec.toNat_ofNat,
    Nat.mod_eq_of_lt (show _ < 2 ^ 16 from low), Nat.mod_eq_of_lt (show _ < 2 ^ 32 from high),
    sentinel, address, ← List.take_add]
  rfl

end Header

namespace Request

/-- The flags that some bytes carry, in the two low bits of the first byte of the address. -/
def flagsIn (content : List Byte) : Flags :=
  .ofBits ((content.getD 2 0#8).setWidth 2)

variable {content : List Byte}

theorem sentinel_iff (long : Header.size ≤ content.length) :
    (Header.ofBytes .little content).sentinel = sentinel ↔ content.take 2 = mark := by
  have six : 6 ≤ content.length := long
  have size : (content.take 2).length = mark.length := by
    rw [List.length_take]
    exact Nat.min_eq_left (by omega)
  constructor
  · intro same
    apply ofLittleEndian_inj size
    have bound := ofLittleEndian_lt (content.take 2)
    rw [size] at bound
    have numbers := congrArg BitVec.toNat same
    change ofLittleEndian (content.take 2) % 2 ^ 16 = ofLittleEndian mark at numbers
    rwa [Nat.mod_eq_of_lt (show _ < 2 ^ 16 from bound)] at numbers
  · intro marked
    rw [Header.ofBytes, marked]
    rfl

theorem flags_ofBytes (long : Header.size ≤ content.length) :
    (Header.ofBytes .little content).address.flags = flagsIn content := by
  match content with
  | [] | [_] | [_, _] => contradiction
  | _ :: _ :: byte :: rest =>
      have low : (BitVec.ofNat 32 (ofLittleEndian ((byte :: rest).take 4))).setWidth 2 =
          byte.setWidth 2 := by
        apply BitVec.eq_of_toNat_eq
        rw [List.take_succ_cons, ofLittleEndian]
        simp only [BitVec.toNat_setWidth, BitVec.toNat_ofNat]
        omega
      exact congrArg Flags.ofBits low

theorem decode?_isSome_iff :
    (decode? content).isSome ↔ Header.size ≤ content.length ∧ content.take 2 = mark ∧
      (content.length - Header.size, flagsIn content) ∈ Operation.rows := by
  rw [decode?]
  by_cases long : Header.size ≤ content.length
  · rw [if_neg (Nat.not_lt_of_le long), ← sentinel_iff long, ← flags_ofBytes long,
      ← List.length_drop, ← Operation.ofPayload?_isSome_iff]
    dsimp only
    split
    case isTrue marked => simp [long, marked]
    case isFalse unmarked => simp [unmarked]
  · simp [Nat.lt_of_not_le long, long]

/-- Whatever decodes is the header of the request and the payload as it is read. -/
theorem eq_of_decode? {request : Request} (decoded : decode? content = some request) :
    content = request.header.toBytes .little ++ request.operation.written := by
  rw [decode?] at decoded
  split at decoded
  case isTrue => cases decoded
  rename_i long
  dsimp only at decoded
  split at decoded
  case isFalse => cases decoded
  rename_i marked
  obtain ⟨operation, chosen, rfl⟩ := Option.map_eq_some_iff.mp decoded
  obtain ⟨flags, written⟩ := Operation.written_of_ofPayload? chosen
  have header : (⟨(Header.ofBytes .little content).address.address, operation⟩ : Request).header =
      Header.ofBytes .little content := by
    rw [Request.header, ← marked, flags, TaggedAddress.tag, TaggedAddress.address,
      Address.index_ofIndex]
  rw [header, written, Header.toBytes_ofBytes .little (Nat.le_of_not_lt long),
    List.take_append_drop]

theorem encode_eq_iff {request : Request} (decoded : decode? content = some request) :
    request.encode = content ↔ ¬ request.operation.Spills := by
  rw [← Operation.payload_eq_written_iff, encode, eq_of_decode? decoded,
    List.append_cancel_left_eq]

/-- A replacement that spills is sent with another value, and with nothing else changed. -/
theorem encode_of_spills {request : Request} (decoded : decode? content = some request)
    (spills : request.operation.Spills) :
    content.length = 14 ∧ request.encode.length = 14 ∧
      request.encode.take 10 = content.take 10 := by
  obtain ⟨address, operation⟩ := request
  have made := eq_of_decode? decoded
  cases operation with
  | modify mask value =>
      let request : Request := ⟨address, .modify mask value⟩
      have front : (request.header.toBytes .little ++ Width.word.toBytes mask).length = 10 := by
        rw [List.length_append, Header.length_toBytes, Width.length_toBytes]
        rfl
      have sent : request.encode = request.header.toBytes .little ++ Width.word.toBytes mask ++
          Width.word.toBytes (value &&& mask) := (List.append_assoc _ _ _).symm
      rw [Operation.written, ← List.append_assoc] at made
      refine ⟨?_, ?_, ?_⟩
      · rw [made, List.length_append, front, Width.length_toBytes]
        rfl
      · rw [sent, List.length_append, front, Width.length_toBytes]
        rfl
      · rw [sent, made, List.take_left' front, List.take_left' front]
  | _ => exact spills.elim

/--
A request arrives as it was sent, a store cut to its width and a replacement to
its mask; exactly the rows of the dispatch table decode, without ever reading
beyond the end; and what decodes is sent again as it was, except for the value
of a replacement that spills.
-/
theorem codec_exact :
    (∀ request : Request, decode? request.encode =
      some ⟨request.address &&& ~~~3#32, request.operation.canonical⟩) ∧
    (∀ address, Address.Aligned address →
      (∀ width, decode? (read address width).encode = some (read address width)) ∧
      ∀ width mask value, decode? (write address width mask value).encode =
        some (write address width mask value)) ∧
    (∀ content, (∃ request, decode? content = some request) ↔
      Header.size ≤ content.length ∧ content.take 2 = mark ∧
        (content.length - Header.size, flagsIn content) ∈ Operation.rows) ∧
    (∀ content request, decode? content = some request →
      (request.encode = content ↔ ¬ request.operation.Spills) ∧
      (request.operation.Spills → content.length = 14 ∧ request.encode.length = 14 ∧
        request.encode.take 10 = content.take 10)) ∧
    ∀ content, Checked.decode? content = .ok (decode? content) := by
  refine ⟨fun request => ?arrives, fun address aligned => ⟨fun width => ?reads,
    fun width mask value => ?writes⟩, fun content => ?_, fun content request decoded =>
    ⟨encode_eq_iff decoded, encode_of_spills decoded⟩, Checked.decode?_eq⟩
  case arrives => rw [decode?_encode, canonical, Address.ofIndex_index_eq]
  case reads =>
    rw [decode?_encode, canonical]
    simp only [read, Address.ofIndex_index aligned]
    rfl
  case writes =>
    rw [decode?_encode, canonical]
    simp only [write, Address.ofIndex_index aligned, Operation.canonical_write]
  rw [← decode?_isSome_iff, Option.isSome_iff_exists]

/-- A replacement as a device may read it, though no host sends it. -/
def spilling : List Byte :=
  mark ++ [0x00#8, 0x00#8, 0x00#8, 0x40#8] ++ Width.word.toBytes 0x0f#32 ++
    Width.word.toBytes 0xff#32

theorem codec_exact_spilling :
    Address.Aligned 0x40000000#32 ∧
      decode? (read 0x40000000#32 .half).encode = some (read 0x40000000#32 .half) ∧
      decode? spilling = some ⟨0x40000000#32, .modify 0x0f#32 0xff#32⟩ ∧
      (⟨0x40000000#32, .modify 0x0f#32 0xff#32⟩ : Request).encode ≠ spilling ∧
      (⟨0x40000000#32, .modify 0x0f#32 0xff#32⟩ : Request).encode.take 10 = spilling.take 10 := by
  have aligned : Address.Aligned 0x40000000#32 := by decide
  have decoded : decode? spilling = some ⟨0x40000000#32, .modify 0x0f#32 0xff#32⟩ := by decide
  have spills : (Operation.modify 0x0f#32 0xff#32).Spills := by
    change _ ≠ _
    decide
  obtain ⟨_, back, _, forth, _⟩ := codec_exact
  obtain ⟨same, apart⟩ := forth _ _ decoded
  exact ⟨aligned, (back _ aligned).1 .half, decoded, fun equal => same.mp equal spills,
    (apart spills).2.2⟩

end Request

end RegisterLink
