import RegisterLink.Device
import RegisterLink.Proofs.Envelope

/-!
# Packets in a stream of bytes

A device cuts whole packets off the front of the bytes that it holds.  What it
holds on to afterwards is always the beginning of a packet: too few bytes to
tell, or a frame of a size that it takes with some of its bytes missing.
-/

namespace RegisterLink

namespace Packet

/-- The beginning of a packet, as far as can be told. -/
def Partial (bytes : List Byte) : Prop :=
  bytes.length < 2 ∨
    Envelope.declared bytes ≤ Request.maxSize ∧
      bytes.length < Envelope.declared bytes + Envelope.overhead

theorem split_nil : split [] = ([], []) := by
  rw [split]
  rintro _ _ _ ⟨⟩

theorem split_marker (rest : List Byte) :
    split (Handshake.marker ++ rest) = (marker :: (split rest).1, (split rest).2) := by
  rw [Handshake.marker, List.cons_append, List.cons_append, List.nil_append, split]
  rfl

theorem split_marker_alone : split Handshake.marker = ([marker], []) := by
  have split := split_marker []
  rwa [List.append_nil, split_nil] at split

/-- A marker read as a size is larger than that of any request. -/
theorem unmarked {low high : Byte} (small : ofLittleEndian [low, high] ≤ Request.maxSize) :
    [low, high] ≠ Handshake.marker := by
  intro same
  rw [same] at small
  revert small
  decide

/-- A frame of a size that the device takes is one packet, whatever it holds and what follows. -/
theorem split_framed {size : Nat} {bytes : List Byte} (framed : Envelope.Framed size bytes)
    (small : size ≤ Request.maxSize) (rest : List Byte) :
    split (bytes ++ rest) = (frame bytes :: (split rest).1, (split rest).2) := by
  match bytes with
  | [] => cases framed.size
  | [_] => cases framed.size
  | low :: high :: body =>
      have number : ofLittleEndian [low, high] = size := framed.declared
      have whole : body.length = size + 2 := by
        have length := framed.size
        simp only [List.length_cons, Envelope.overhead] at length
        omega
      have mark := unmarked (number ▸ small)
      rw [List.cons_append, List.cons_append, split, if_neg mark]
      simp only [number, Nat.not_lt_of_le small, if_false, List.take_left' whole,
        List.drop_left' whole, whole, Nat.lt_irrefl]

/-- A size beyond every request drops everything. -/
theorem split_oversized {low high : Byte} (unmarked : [low, high] ≠ Handshake.marker)
    (large : Request.maxSize < ofLittleEndian [low, high]) (rest : List Byte) :
    split (low :: high :: rest) = ([], []) := by
  rw [split, if_neg unmarked]
  simp only [if_pos large]

theorem split_partial {bytes : List Byte} (part : Partial bytes) : split bytes = ([], bytes) := by
  match bytes with
  | [] => exact split_nil
  | [byte] =>
      rw [split]
      rintro _ _ _ ⟨⟩
  | low :: high :: rest =>
      obtain few | ⟨small, lacking⟩ := part
      · exact absurd few (by simp)
      have size : Envelope.declared (low :: high :: rest) = ofLittleEndian [low, high] := rfl
      rw [size] at small lacking
      have short : (rest.take (ofLittleEndian [low, high] + 2)).length <
          ofLittleEndian [low, high] + 2 := by
        rw [List.length_take]
        simp only [List.length_cons, Envelope.overhead] at lacking
        omega
      rw [split, if_neg (unmarked small)]
      simp only [Nat.not_lt_of_le small, if_false, if_pos short]

/-- What is left over is the beginning of a packet, whatever came before it. -/
theorem partial_split (bytes : List Byte) : Partial (split bytes).2 := by
  fun_induction split bytes with
  | case1 low high rest marked packets left same ih =>
      rwa [same] at ih
  | case2 low high rest unmarked size large =>
      exact .inl (by decide)
  | case3 low high rest unmarked size fits body short =>
      have missing : rest.length < size + 2 := by
        rw [List.length_take] at short
        omega
      refine .inr ⟨Nat.le_of_not_lt fits, ?_⟩
      change rest.length + 1 + 1 < size + 4
      omega
  | case4 low high rest unmarked size fits body whole packets left same ih =>
      rwa [same] at ih
  | case5 bytes few =>
      match bytes with
      | [] => exact .inl (by decide)
      | [byte] => exact .inl Nat.one_lt_two
      | low :: high :: rest => exact (few low high rest rfl).elim

/-- Every packet uses up at least two bytes, so a device is soon done with what it holds. -/
theorem two_mul_packets_le (bytes : List Byte) :
    2 * (split bytes).1.length + (split bytes).2.length ≤ bytes.length := by
  fun_induction split bytes with
  | case1 low high rest marked packets left same ih =>
      rw [same] at ih
      simp only [List.length_cons] at ih ⊢
      omega
  | case2 => exact Nat.zero_le _
  | case3 => exact Nat.le_of_eq (Nat.zero_add _)
  | case4 low high rest unmarked size fits body whole packets left same ih =>
      rw [same, List.length_drop] at ih
      simp only [List.length_cons] at ih ⊢
      omega
  | case5 bytes few => exact Nat.le_of_eq (Nat.zero_add _)

theorem Partial.length_le {bytes : List Byte} (part : Partial bytes) : bytes.length ≤ 17 := by
  obtain few | ⟨small, lacking⟩ := part
  · omega
  · have bound : Envelope.declared bytes ≤ 14 := small
    rw [Envelope.overhead] at lacking
    omega

/-- A frame no larger than a request is one packet, whatever follows it. -/
theorem split_frame {content : List Byte} (small : content.length ≤ Request.maxSize)
    (rest : List Byte) :
    split (Envelope.frame content ++ rest) =
      (frame (Envelope.frame content) :: (split rest).1, (split rest).2) := by
  have whole :
      (content ++ littleEndian 2 (checksum content).toNat).length = content.length + 2 := by
    rw [List.length_append, length_littleEndian]
  have within : content.length ≤ Envelope.maxContent := Nat.le_trans small (by decide)
  have framed := Envelope.framed_header within whole
  rw [← List.append_assoc] at framed
  exact split_framed framed small rest

theorem request?_frame {content : List Byte} (small : content.length ≤ Request.maxSize) :
    (frame (Envelope.frame content)).request? = Request.decode? content := by
  have within : content.length ≤ Envelope.maxContent := Nat.le_trans small (by decide)
  have size : (Envelope.frame content).length - Envelope.overhead = content.length := by
    rw [Envelope.length_frame, Nat.add_sub_cancel]
  simp only [request?, size, Envelope.contents_frame within]

end Packet

end RegisterLink
