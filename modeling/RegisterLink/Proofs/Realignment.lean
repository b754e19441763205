import RegisterLink.Proofs.Recovery

/-!
# Handshakes over unread bytes

A handshake takes the next two bytes for its acknowledgement, whatever they
belong to.  What an exchange left unread comes first, so a handshake on its own
leaves as many bytes unread as it found: it fails on the rest of an answer, and
takes an older acknowledgement for its own.  Only once these bytes are dropped
is the acknowledgement that comes the one that was asked for.
-/

namespace RegisterLink

namespace Device

variable {device : Device}

theorem outbound_mark (heard : device.silenced = 0) :
    device.mark.outbound = device.outbound ++ Handshake.acknowledgement := by
  simp [mark, say, heard]

/-- The bytes that come first acknowledge a marker if nothing else was left or they would alone. -/
theorem acknowledges_iff (unread : List Byte) :
    (unread ++ Handshake.acknowledgement).take 2 = Handshake.acknowledgement ↔
      unread = [] ∨ unread.take 2 = Handshake.acknowledgement := by
  match unread with
  | [] => simp [Handshake.acknowledgement]
  | [byte] => simp [Handshake.acknowledgement]
  | first :: second :: rest => simp

end Device

namespace Session

variable {session : Session Cable} {budget : Nat}

/-- A handshake on a quiet cable succeeds by what comes first, and leaves what comes after it. -/
theorem resync_over (sound : session.channel.Sound budget) (quiet : session.link.Quiet)
    (heard : session.link.device.silenced = 0) :
    ∃ after,
      resync session =
        (if session.link.device.outbound = [] ∨
            session.link.device.outbound.take 2 = Handshake.acknowledgement then .ok ()
          else .error .unacknowledged, after) ∧
      after.link.device.outbound =
        (session.link.device.outbound ++ Handshake.acknowledgement).drop 2 ∧
      session.link.device.Realigned after.link.device := by
  obtain ⟨channel, called, there⟩ :=
    Channel.resync_apply Cable.carries ⟨sound.budget, quiet, rfl⟩ sound.idle
  change channel.At _ _ budget (session.link.device.mark.hear 2) at there
  refine ⟨{ session with channel }, ?_, ?_, ?_⟩
  · rw [resync, onChannel_apply called]
    change (if session.link.device.mark.outbound.take 2 = _ then _ else _, _) = _
    simp only [Device.outbound_mark heard, Device.acknowledges_iff]
  · change channel.link.device.outbound = _
    rw [there.held, Device.hear, Device.outbound_mark heard]
  · change session.link.device.Realigned channel.link.device
    rw [there.held]
    exact Device.realigned_mark sound.idle

/-- Dropping what is unread leaves nothing for a handshake but its own acknowledgement. -/
theorem resync_cleared (sound : session.channel.Sound budget) (quiet : session.link.Quiet)
    (heard : session.link.device.silenced = 0) :
    ∃ cleared after, clear session = (.ok (), cleared) ∧ resync cleared = (.ok (), after) ∧
      after.link.device.outbound = [] ∧
      after.link.device.memory = session.link.device.memory ∧
      after.link.device.requests = session.link.device.requests := by
  obtain ⟨channel, called, there⟩ :=
    Channel.clear_apply Cable.carries ⟨sound.budget, quiet, rfl⟩
  change channel.At _ _ budget { session.link.device with outbound := [] } at there
  let cleared : Session Cable := { session with channel }
  have held : cleared.link.device = { session.link.device with outbound := [] } := there.held
  have empty : cleared.link.device.outbound = [] := congrArg Device.outbound held
  have still : cleared.channel.Sound budget :=
    ⟨there.budget, (congrArg Device.inbound held).trans sound.idle⟩
  obtain ⟨after, acknowledged, left, realigned⟩ :=
    resync_over still there.calm ((congrArg Device.silenced held).trans heard)
  rw [if_pos (.inl empty)] at acknowledged
  rw [empty] at left
  refine ⟨cleared, after, ?_, acknowledged, left, ?_, ?_⟩
  · rw [clear, onChannel_apply called]
  · rw [realigned.memory, held]
  · rw [realigned.requests, held]

/--
Wherever a run on a failing cable has led, once the cable is quiet and the device
heard: a handshake is acknowledged exactly if nothing is unread or the first two
unread bytes are an older acknowledgement, and as many bytes are unread after it
as before; after clearing it is always acknowledged, and nothing stays unread.
-/
theorem realigns_once_cleared (device : Device) (idle : device.inbound = []) (config : Config)
    (ahead : List Moment) (steps : List Step) {session : Session Cable}
    (reached : (start { device, ahead } config).run steps = session)
    (quiet : session.link.Quiet) (heard : session.link.device.silenced = 0) :
    let unread := session.link.device.outbound
    (∃ after,
      resync session =
        (if unread = [] ∨ unread.take 2 = Handshake.acknowledgement then .ok ()
          else .error .unacknowledged, after) ∧
      after.link.device.outbound.length = unread.length) ∧
    ∃ cleared after, clear session = (.ok (), cleared) ∧ resync cleared = (.ok (), after) ∧
      after.link.device.outbound = [] ∧
      after.link.device.memory = session.link.device.memory ∧
      after.link.device.requests = session.link.device.requests := by
  have sound : session.channel.Sound config.budget := by
    rw [← reached]
    exact sound_run steps ⟨rfl, idle⟩
  obtain ⟨after, shaken, left, _⟩ := resync_over sound quiet heard
  refine ⟨⟨after, shaken, ?_⟩, resync_cleared sound quiet heard⟩
  rw [left, List.length_drop, List.length_append]
  rfl

/-- A read whose answer came too late to be received. -/
def late : Session Cable :=
  (start { device := {}, ahead := [{}, {}, { cut := some 0 }] } {}).run
    [.perform (.readBits 0x20000000#32 .word Mask.full .direct "late")]

/-- A handshake whose acknowledgement came too late to be received. -/
def lateHandshake : Session Cable :=
  (start { device := {}, ahead := [{}, { cut := some 0 }] } {}).run [.perform .resync]

theorem quiet_late : late.link.Quiet :=
  Cable.quiet_spent (List.eq_nil_of_length_eq_zero (by decide +kernel))

theorem quiet_lateHandshake : lateHandshake.link.Quiet :=
  Cable.quiet_spent (List.eq_nil_of_length_eq_zero (by decide +kernel))

theorem realigns_once_cleared_late :
    late.link.device.outbound.length = 8 ∧
      ∃ cleared after, clear late = (.ok (), cleared) ∧ resync cleared = (.ok (), after) ∧
        after.link.device.outbound = [] := by
  obtain ⟨_, cleared, after, dropped, acknowledged, left, _⟩ :=
    realigns_once_cleared _ rfl _ _ _ (show _ = late from rfl) quiet_late (by decide +kernel)
  exact ⟨by decide +kernel, cleared, after, dropped, acknowledged, left⟩

/--
Without the clearing, a handshake over a late answer fails, and one over a late
acknowledgement believes it and leaves its own behind.
-/
theorem misled_by_unread :
    (late.link.Quiet ∧ late.link.device.silenced = 0 ∧
      (resync late).1 = .error .unacknowledged) ∧
    (lateHandshake.link.Quiet ∧ lateHandshake.link.device.silenced = 0 ∧
      lateHandshake.link.device.outbound = Handshake.acknowledgement ∧
      (resync lateHandshake).1 = .ok () ∧
      (resync lateHandshake).2.link.device.outbound = Handshake.acknowledgement) := by
  have heard : late.link.device.silenced = 0 := by decide +kernel
  have heardHandshake : lateHandshake.link.device.silenced = 0 := by decide +kernel
  have sound : late.channel.Sound ({} : Config).budget := sound_run _ ⟨rfl, rfl⟩
  have soundHandshake : lateHandshake.channel.Sound ({} : Config).budget :=
    sound_run _ ⟨rfl, rfl⟩
  obtain ⟨failed, refused, _⟩ := resync_over sound quiet_late heard
  obtain ⟨misled, believed, left, _⟩ :=
    resync_over soundHandshake quiet_lateHandshake heardHandshake
  have stale : lateHandshake.link.device.outbound = Handshake.acknowledgement := by
    decide +kernel
  rw [if_neg (by decide +kernel)] at refused
  rw [stale] at believed left
  refine ⟨⟨quiet_late, heard, ?_⟩, quiet_lateHandshake, heardHandshake, stale, ?_, ?_⟩
  · rw [refused]
  · rw [believed]
    rfl
  · rw [believed]
    exact left

end Session

end RegisterLink
