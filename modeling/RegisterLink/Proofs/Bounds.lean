import RegisterLink.Envelope
import RegisterLink.Proofs.Digits
import RegisterLink.Request.Codec

/-!
# Reading within bounds

Envelopes and requests are taken apart by position.  The readers of this file
make the same checks in the same order, but every cut, every look at a byte and
every sum of sizes may overrun.  None of them ever does, and what they read is
what the plain readers read: it is the order of the checks that keeps the
positions inside.
-/

namespace RegisterLink

/-- How reading by position may go too far. -/
inductive Overrun where
  /-- There are only so many bytes before this place. -/
  | beyond (place available : Nat)
  /-- A sum is larger than the largest size. -/
  | overflow

namespace Checked

def cut (bytes : List Byte) (place : Nat) : Except Overrun (List Byte × List Byte) :=
  if place ≤ bytes.length then .ok (bytes.take place, bytes.drop place)
  else .error (.beyond place bytes.length)

def byte (bytes : List Byte) (place : Nat) : Except Overrun Byte :=
  match bytes[place]? with
  | some byte => .ok byte
  | none => .error (.beyond place bytes.length)

/-- The little-endian number in `count` bytes from a place on, each looked up by itself. -/
def number (bytes : List Byte) (place : Nat) : (count : Nat) → Except Overrun Nat
  | 0 => .ok 0
  | count + 1 => do
      let low ← byte bytes place
      let high ← number bytes (place + 1) count
      .ok (low.toNat + 256 * high)

/-- The value of a width whose bytes start at a place. -/
def value (bytes : List Byte) (place : Nat) (width : Width) : Except Overrun Word := do
  .ok (.ofNat 32 (← number bytes place width.bytes))

/-- A sum of sizes, none of which may be above `limit`. -/
def sum (limit first second : Nat) : Except Overrun Nat :=
  if first + second ≤ limit then .ok (first + second) else .error .overflow

/-- The content of a received frame, as `Envelope.contents` has it. -/
def contents (limit expected : Nat) (received : List Byte) :
    Except Overrun (Except Error (List Byte)) :=
  if received.length = 0 then .ok (.error .timeout)
  else do
    let whole ← sum limit expected Envelope.overhead
    if received.length ≠ whole then .ok (.error (.framing whole received.length))
    else
      let (size, rest) ← cut received 2
      let (content, trailer) ← cut rest expected
      if (← number size 0 2) ≠ expected then .ok (.error (.framing whole received.length))
      else if (checksum content).toNat = (← number trailer 0 2) then .ok (.ok content)
      else .ok (.error .integrity)

/-- The operation selected by flags and payload, as `Operation.ofPayload?` has it. -/
def ofPayload? (flags : Flags) (payload : List Byte) : Except Overrun (Option Operation) :=
  match payload.length, flags with
  | 0, .word => .ok (some (.load .word))
  | 0, .byte => .ok (some (.load .byte))
  | 0, .half => .ok (some (.load .half))
  | 1, .byte => do .ok (some (.store .byte (← value payload 0 .byte)))
  | 1, .word => do .ok (some (.setBit (← byte payload 0)))
  | 1, .half => do .ok (some (.clearBit (← byte payload 0)))
  | 2, .word => do .ok (some (.store .half (← value payload 0 .half)))
  | 4, .word => do .ok (some (.store .word (← value payload 0 .word)))
  | 4, .byte => do .ok (some (.setMask (← value payload 0 .word)))
  | 4, .half => do .ok (some (.clearMask (~~~(← value payload 0 .word))))
  | 8, .word => do .ok (some (.modify (← value payload 0 .word) (← value payload 4 .word)))
  | _, _ => .ok none

/-- The request in some bytes, as `Request.decode?` has it. -/
def decode? (content : List Byte) : Except Overrun (Option Request) :=
  if content.length < Header.size then .ok none
  else do
    let (front, payload) ← cut content Header.size
    let header := Header.ofBytes .little front
    if header.sentinel = Request.sentinel then
      let operation ← ofPayload? header.address.flags payload
      .ok (operation.map (⟨header.address.address, ·⟩))
    else .ok none

variable {bytes : List Byte} {place count : Nat}

theorem cut_within (within : place ≤ bytes.length) :
    cut bytes place = .ok (bytes.take place, bytes.drop place) :=
  if_pos within

theorem byte_within (within : place < bytes.length) : byte bytes place = .ok bytes[place] := by
  rw [byte, List.getElem?_eq_getElem within]

theorem number_within (within : place + count ≤ bytes.length) :
    number bytes place count = .ok (ofLittleEndian ((bytes.drop place).take count)) := by
  induction count generalizing place with
  | zero => rfl
  | succ count ih =>
      have here : place < bytes.length := by omega
      have rest : number bytes (place + 1) count =
          .ok (ofLittleEndian ((bytes.drop (place + 1)).take count)) := ih (by omega)
      rw [number, byte_within here, rest, List.drop_eq_getElem_cons here, List.take_succ_cons]
      rfl

/-- All of some bytes as a number. -/
theorem number_all (all : bytes.length = count) :
    number bytes 0 count = .ok (ofLittleEndian bytes) := by
  rw [number_within (by omega), List.drop_zero, ← all, List.take_length]

/-- A step that stays within bounds hands its value on. -/
theorem ok_bind {α β : Type} (value : α) (rest : α → Except Overrun β) :
    (Except.ok value >>= rest) = rest value := rfl

theorem value_within (width : Width) (within : place + width.bytes ≤ bytes.length) :
    value bytes place width = .ok (width.ofBytes (bytes.drop place)) := by
  rw [value, number_within within, ok_bind, Width.ofBytes]

theorem sum_within {limit first second : Nat} (within : first + second ≤ limit) :
    sum limit first second = .ok (first + second) :=
  if_pos within

/-- Taking a frame apart never overruns, as long as the size of the whole frame is a size at all. -/
theorem contents_eq {limit expected : Nat} (within : expected + Envelope.overhead ≤ limit)
    (received : List Byte) :
    contents limit expected received = .ok (Envelope.contents expected received) := by
  by_cases empty : received.length = 0
  · simp only [contents, Envelope.contents, if_pos empty]
  by_cases whole : received.length = expected + Envelope.overhead
  · have long : received.length = expected + 4 := whole
    have size : (received.take 2).length = 2 := by
      rw [List.length_take]
      omega
    have rest : expected ≤ (received.drop 2).length := by
      rw [List.length_drop]
      omega
    have trailer : ((received.drop 2).drop expected).length = 2 := by
      rw [List.length_drop, List.length_drop]
      omega
    rw [contents, Envelope.contents, if_neg empty, if_neg empty, sum_within within, ok_bind,
      if_neg (not_not_intro whole), if_neg (not_not_intro whole), cut_within (by omega), ok_bind]
    simp only [cut_within rest, number_all size, number_all trailer, ok_bind]
    split
    · rw [whole]
    · split <;> rfl
  · simp only [contents, Envelope.contents, if_neg empty, sum_within within, ok_bind, ne_eq, whole,
      not_false_eq_true, if_true]

/-- A payload of the size that its row of the table asks for has every byte that is read. -/
theorem ofPayload?_eq (flags : Flags) (payload : List Byte) :
    ofPayload? flags payload = .ok (Operation.ofPayload? flags payload) := by
  have position (one : payload.length = 1) :
      byte payload 0 = .ok (.ofNat 8 (ofLittleEndian payload)) := by
    obtain ⟨position, rfl⟩ := List.length_eq_one_iff.mp one
    simp [byte, ofLittleEndian]
  have first (width : Width) {count : Nat} (size : payload.length = count)
      (enough : width.bytes ≤ count) : value payload 0 width = .ok (width.ofBytes payload) := by
    rw [value_within width (by omega), List.drop_zero]
  fun_cases Operation.ofPayload? flags payload with
  | case1 size | case2 size | case3 size => simp only [ofPayload?, size]
  | case5 size | case6 size => simp only [ofPayload?, size, position size, ok_bind]
  | case4 size => simp only [ofPayload?, size, first .byte size (Nat.le_refl _), ok_bind]
  | case7 size => simp only [ofPayload?, size, first .half size (Nat.le_refl _), ok_bind]
  | case8 size | case9 size | case10 size =>
      simp only [ofPayload?, size, first .word size (Nat.le_refl _), ok_bind]
  | case11 size =>
      have second : value payload 4 .word = .ok (Width.word.ofBytes (payload.drop 4)) :=
        value_within .word (Nat.le_of_eq size.symm)
      simp only [ofPayload?, size, first .word size (by decide), second, ok_bind]
  | case12 =>
      unfold ofPayload?
      split <;> simp_all

/-- Taking a request apart never overruns. -/
theorem decode?_eq (content : List Byte) : decode? content = .ok (Request.decode? content) := by
  by_cases short : content.length < Header.size
  · simp only [decode?, Request.decode?, if_pos short]
  · have front : Header.ofBytes .little (content.take Header.size) = .ofBytes .little content := by
      simp only [Header.ofBytes, Header.size, List.take_take, List.drop_take]
      rfl
    rw [decode?, Request.decode?, if_neg short, if_neg short, cut_within (Nat.le_of_not_lt short),
      ok_bind]
    simp only [front, ofPayload?_eq, ok_bind]
    split <;> rfl

end Checked

end RegisterLink
