import RegisterLink.Proofs.Device

/-!
# Markers bring the device back into step

A device that holds the beginning of a packet takes markers for the rest of it,
and may lose them to it.  How many it can lose is read off what it holds: each
marker is one less, and when none is left the device holds nothing.
-/

namespace RegisterLink

namespace Packet

/-- How many bytes a frame lacks, by the size that it declares. -/
def missing (bytes : List Byte) : Nat :=
  Envelope.declared bytes + Envelope.overhead - bytes.length

/--
How many markers it takes to get rid of the beginning of a packet.  A byte alone
reads as a size no request has.  A frame takes in a marker for every two bytes
that it lacks; the marker that fills it with only its first byte leaves the
other one alone.
-/
def lag (bytes : List Byte) : Nat :=
  if bytes.length < 2 then bytes.length else missing bytes / 2 + 2 * (missing bytes % 2)

variable {bytes : List Byte}

theorem lag_of_long (long : 2 ≤ bytes.length) :
    lag bytes = missing bytes / 2 + 2 * (missing bytes % 2) :=
  if_neg (Nat.not_lt_of_le long)

theorem missing_append {first : List Byte} (long : 2 ≤ first.length) (rest : List Byte) :
    missing (first ++ rest) = missing first - rest.length := by
  rw [missing, missing, Envelope.declared_append long, List.length_append, Nat.sub_add_eq]

/-- Bytes that declare a size begin a frame that the device takes, and lack some of it. -/
theorem Partial.lacks (part : Partial bytes) (long : 2 ≤ bytes.length) :
    Envelope.declared bytes ≤ Request.maxSize ∧ 0 < missing bytes := by
  obtain few | ⟨small, lacking⟩ := part
  · exact absurd few (Nat.not_lt_of_le long)
  · exact ⟨small, Nat.sub_pos_of_lt lacking⟩

/-- Fifteen missing bytes take longest: seven markers, one more for the last of them, and one. -/
theorem lag_le (part : Partial bytes) : lag bytes ≤ 9 := by
  by_cases long : 2 ≤ bytes.length
  · have bound : Envelope.declared bytes ≤ 14 := (part.lacks long).1
    have most : missing bytes ≤ 16 := by
      rw [missing, Envelope.overhead]
      omega
    rw [lag_of_long long]
    omega
  · rw [lag, if_pos (Nat.lt_of_not_le long)]
    omega

/-- There is nothing left to get rid of only where nothing is held. -/
theorem eq_nil_of_lag (part : Partial bytes) (aligned : lag bytes = 0) : bytes = [] := by
  by_cases long : 2 ≤ bytes.length
  · have some := (part.lacks long).2
    rw [lag_of_long long] at aligned
    omega
  · rw [lag, if_pos (Nat.lt_of_not_le long)] at aligned
    exact List.eq_nil_of_length_eq_zero aligned

/-- A frame is complete with as many bytes as it lacks, whatever they are. -/
theorem split_missing {first : List Byte} (long : 2 ≤ first.length)
    (small : Envelope.declared first ≤ Request.maxSize) (some : 0 < missing first)
    (rest : List Byte) (lacks : missing first = rest.length) (more : List Byte) :
    (split (first ++ rest ++ more)).2 = (split more).2 := by
  have size : (first ++ rest).length = Envelope.declared first + Envelope.overhead := by
    rw [List.length_append, ← lacks]
    rw [missing] at some ⊢
    omega
  rw [split_framed ⟨size, Envelope.declared_append long rest⟩ small]

/-- Before a marker, a byte alone is the lower half of a size that no request has. -/
theorem split_lone (low : Byte) : split ([low] ++ Handshake.marker) = ([], []) := by
  have large : Request.maxSize < ofLittleEndian [low, 0x55] := by
    change 14 < low.toNat + 256 * 85
    omega
  exact split_oversized (by simp [Handshake.marker]) large [0xaa]

/-- A frame takes in a marker for every two bytes that it lacks. -/
theorem lag_marker_of_long (long : 2 ≤ bytes.length)
    (small : Envelope.declared bytes ≤ Request.maxSize) (some : 0 < missing bytes) :
    lag (split (bytes ++ Handshake.marker)).2 = lag bytes - 1 := by
  rw [lag_of_long long]
  obtain one | two | many : missing bytes = 1 ∨ missing bytes = 2 ∨ 2 < missing bytes := by omega
  · have left : (split (bytes ++ [0x55] ++ [0xaa])).2 = (split [0xaa]).2 :=
      split_missing long small some [0x55] one [0xaa]
    have alone : split [0xaa] = ([], [0xaa]) := split_partial (.inl (by decide))
    rw [List.append_assoc, alone] at left
    rw [one]
    exact congrArg lag left
  · have left : (split (bytes ++ Handshake.marker ++ [])).2 = (split []).2 :=
      split_missing long small some Handshake.marker two []
    rw [List.append_nil, split_nil] at left
    rw [left, two]
    rfl
  · have grown : 2 ≤ (bytes ++ Handshake.marker).length := by
      rw [List.length_append]
      omega
    have lacks : missing (bytes ++ Handshake.marker) = missing bytes - 2 :=
      missing_append long Handshake.marker
    have part : Partial (bytes ++ Handshake.marker) := by
      refine .inr ⟨?_, Nat.lt_of_sub_pos (?_ : 0 < missing _)⟩
      · rwa [Envelope.declared_append long]
      · omega
    rw [split_partial part, lag_of_long grown, lacks]
    omega

/-- A marker is one less to go. -/
theorem lag_marker (part : Partial bytes) :
    lag (split (bytes ++ Handshake.marker)).2 = lag bytes - 1 := by
  match bytes with
  | [] =>
      rw [List.nil_append, split_marker_alone]
      rfl
  | [low] =>
      rw [split_lone]
      rfl
  | low :: high :: rest =>
      have long : 2 ≤ (low :: high :: rest).length := Nat.le_add_left 2 rest.length
      obtain ⟨small, some⟩ := part.lacks long
      exact lag_marker_of_long long small some

end Packet

namespace Device

/-- What is held after some bytes is what the packets in them leave over. -/
theorem inbound_feed (device : Device) (data : List Byte) :
    (device.feed data).inbound = (Packet.split (device.inbound ++ data)).2 :=
  (buffers_handleAll _ _).1

/-- A device that was sent anything holds no more than the beginning of a packet. -/
theorem partial_feed (device : Device) (data : List Byte) :
    Packet.Partial (device.feed data).inbound := by
  rw [inbound_feed]
  exact Packet.partial_split _

theorem partial_feedAll (pieces : List (List Byte)) :
    ∀ {device : Device}, Packet.Partial device.inbound →
      Packet.Partial (pieces.foldl feed device).inbound := by
  induction pieces with
  | nil => exact id
  | cons piece pieces ih => exact fun _ => ih (partial_feed _ piece)

/-- Each of some markers is one less to go. -/
theorem lag_markers (count : Nat) :
    ∀ {device : Device}, Packet.Partial device.inbound →
      Packet.lag ((List.replicate count Handshake.marker).foldl feed device).inbound =
        Packet.lag device.inbound - count := by
  induction count with
  | zero => exact fun _ => rfl
  | succ count ih =>
      intro device part
      rw [List.replicate_succ, List.foldl_cons, ih (partial_feed device Handshake.marker),
        inbound_feed, Packet.lag_marker part, Nat.sub_sub, Nat.add_comm 1]

/-- As many markers as it lags behind bring a device back into step. -/
theorem inbound_markers {device : Device} (part : Packet.Partial device.inbound) {count : Nat}
    (enough : Packet.lag device.inbound ≤ count) :
    ((List.replicate count Handshake.marker).foldl feed device).inbound = [] := by
  refine Packet.eq_nil_of_lag (partial_feedAll _ part) ?_
  rw [lag_markers count part, Nat.sub_eq_zero_of_le enough]

/--
Whatever bytes a device was sent, in whatever chunks, it is done with them after
at most one packet for every two of them, and holds the beginning of one packet
at most.  After nine markers it holds nothing, so it counts and acknowledges the
tenth and every later one.
-/
theorem markers_realign {start : Device} (idle : start.inbound = []) (chunks : List (List Byte)) :
    ∃ device : Device, List.forM chunks Link.send start = (.ok (), device) ∧
      (device.inbound.length ≤ 17 ∧
        (device.inbound.length < 2 ∨
          Envelope.declared device.inbound ≤ Request.maxSize ∧
            device.inbound.length < Envelope.declared device.inbound + Envelope.overhead)) ∧
      (∀ data,
        2 * (Packet.split (device.inbound ++ data)).1.length +
            (Packet.split (device.inbound ++ data)).2.length ≤
          (device.inbound ++ data).length) ∧
      ∀ count, 9 ≤ count → ∃ marked : Device,
        List.forM (List.replicate count Handshake.marker) Link.send device = (.ok (), marked) ∧
        marked.inbound = [] ∧
        Link.send Handshake.marker marked =
          ((.ok (), { marked with syncs := marked.syncs + 1 }.say Handshake.acknowledgement) :
            Except LinkFailure Unit × Device) := by
  have nothing : Packet.Partial start.inbound := idle ▸ .inl (by decide)
  have part := partial_feedAll chunks nothing
  refine ⟨_, send_pieces chunks start, ⟨part.length_le, part⟩,
    fun data => Packet.two_mul_packets_le _, fun count nine => ?_⟩
  have empty := inbound_markers part (Nat.le_trans (Packet.lag_le part) nine)
  exact ⟨_, send_pieces _ _, empty, congrArg (Except.ok (), ·) (feed_marker empty)⟩

/--
A frame of the largest size with fifteen bytes missing takes in eight markers
and leaves the second byte of the last one, so the ninth is lost as well.
-/
theorem markers_realign_swallowed :
    ({ } : Device).inbound = [] ∧
      ∃ device marked : Device,
        List.forM [[0x0e], [0x00, 0x00]] Link.send { } = (.ok (), device) ∧
        device.inbound = [0x0e, 0x00, 0x00] ∧
        ((List.replicate 8 Handshake.marker).foldl feed device).inbound = [0xaa] ∧
        List.forM (List.replicate 9 Handshake.marker) Link.send device = (.ok (), marked) ∧
        marked.inbound = [] ∧ marked.syncs = 0 ∧ marked.outbound = [] ∧
        Link.send Handshake.marker marked =
          ((.ok (), { marked with syncs := 1 }.say Handshake.acknowledgement) :
            Except LinkFailure Unit × Device) := by
  have idle : ({ } : Device).inbound = [] := rfl
  obtain ⟨device, reached, _, _, marks⟩ := markers_realign idle [[0x0e], [0x00, 0x00]]
  obtain ⟨marked, sent, empty, acknowledged⟩ := marks 9 (Nat.le_refl 9)
  have begun : [[0x0e], [0x00, 0x00]].foldl feed { } = device := congrArg Prod.snd reached
  have lost : (List.replicate 9 Handshake.marker).foldl feed device = marked := by
    rw [send_pieces] at sent
    exact congrArg Prod.snd sent
  subst begun
  subst lost
  have uncounted : ((List.replicate 9 Handshake.marker).foldl feed
      ([[0x0e], [0x00, 0x00]].foldl feed { })).syncs = 0 := by decide +kernel
  rw [uncounted] at acknowledged
  exact ⟨idle, _, _, reached, by decide +kernel, by decide +kernel, sent, empty, uncounted,
    by decide +kernel, acknowledged⟩

end Device

end RegisterLink
