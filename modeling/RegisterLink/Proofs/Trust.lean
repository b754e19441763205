import RegisterLink.Proofs.Access
import RegisterLink.Proofs.Cable
import RegisterLink.Proofs.Conversation
import RegisterLink.Proofs.Wire

/-!
# Trusted answers

A read believes one thing only: a receive that brought the whole frame of a
value of the right size, right after its request went out.  Such a receive ends
the read, and without one the read fails, however many attempts it makes and
whatever else the link delivers on the way.
-/

namespace RegisterLink

namespace Channel

/-- The call brought the frame of a content of a size. -/
def Answers (timeout size : Nat) (call : LinkCall) : Prop :=
  ∃ content : List Byte, content.length = size ∧
    call = .receive (size + Envelope.overhead) timeout (.ok (Envelope.frame content))

/-- None of the calls brought such a frame. -/
def Unanswered (timeout size : Nat) (made : List LinkCall) : Prop :=
  ∀ call ∈ made, ¬ Answers timeout size call

/-- How a read ends: at its first answer, with the value of it, or without one. -/
inductive Trusts (timeout : Nat) (address : Word) (width : Width) :
    List LinkCall → Except Error Word → Nat → Prop
  | answered {earlier : List LinkCall} {content : List Byte}
      (unanswered : Unanswered timeout width.bytes earlier) (whole : content.length = width.bytes) :
      Trusts timeout address width
        (earlier ++ [.send (Envelope.frame (Request.read address width).encode) (.ok ()),
          .receive (width.bytes + Envelope.overhead) timeout (.ok (Envelope.frame content))])
        (.ok (width.ofBytes content)) 0
  | failed {made : List LinkCall} {after : Nat} (error : Error)
      (unanswered : Unanswered timeout width.bytes made) :
      Trusts timeout address width made (.error error) after

variable {budget timeout sent size after : Nat} {made first second : List LinkCall}

theorem Unanswered.append (before : Unanswered timeout size first)
    (later : Unanswered timeout size second) : Unanswered timeout size (first ++ second) := by
  intro call member
  rcases List.mem_append.mp member with member | member
  · exact before call member
  · exact later call member

theorem unanswered_send (data : List Byte) (outcome : Except LinkFailure Unit) :
    Unanswered timeout size [.send data outcome] := by
  rintro call member ⟨content, _, rfl⟩
  cases List.mem_singleton.mp member

theorem unanswered_discard (outcome : Except LinkFailure Unit) :
    Unanswered timeout size [.discard outcome] := by
  rintro call member ⟨content, _, rfl⟩
  cases List.mem_singleton.mp member

/-- An acknowledgement is too short to be taken for an answer. -/
theorem Handshakes.unanswered {outcome : Except LinkFailure (List Byte)}
    (handshake : Handshakes timeout made outcome) (size : Nat) : Unanswered timeout size made := by
  have short (result : Except LinkFailure (List Byte)) :
      Unanswered timeout size
        [.receive Handshake.acknowledgement.length timeout result] := by
    rintro call member ⟨content, _, rfl⟩
    injection List.mem_singleton.mp member with asked
    simp only [Envelope.overhead, Handshake.acknowledgement, List.length_cons,
      List.length_nil] at asked
    omega
  cases handshake with
  | unsent failure => exact unanswered_send _ _
  | unheard failure => exact (unanswered_send _ _).append (short _)
  | heard answer => exact (unanswered_send _ _).append (short _)

theorem Sends.unanswered {content : List Byte} {result : Except Error Unit}
    (sends : Sends budget timeout sent content made result after) (size : Nat) :
    Unanswered timeout size made := by
  cases sends with
  | refused refused => exact fun _ member => nomatch member
  | posted fits room outcome => exact unanswered_send _ _
  | stopped fits spent handshake => exact handshake.unanswered size
  | realigned fits spent handshake outcome =>
      exact (handshake.unanswered size).append (unanswered_send _ _)

/-- A send that succeeds has the frame go out last. -/
theorem Sends.last {content : List Byte}
    (sends : Sends budget timeout sent content made (.ok ()) after) (size : Nat) :
    ∃ earlier, made = earlier ++ [.send (Envelope.frame content) (.ok ())] ∧
      Unanswered timeout size earlier := by
  generalize same : (Except.ok () : Except Error Unit) = result at sends
  cases sends with
  | refused refused => cases same
  | posted fits room outcome =>
      cases outcome with
      | error failure => cases same
      | ok done => exact ⟨[], rfl, fun _ member => nomatch member⟩
  | stopped fits spent handshake => cases same
  | realigned fits spent handshake outcome =>
      cases outcome with
      | error failure => cases same
      | ok done => exact ⟨_, rfl, handshake.unanswered size⟩

/-- A receive that succeeds is an answer and settles the count. -/
theorem Receives.answer {content : List Byte}
    (receives : Receives size timeout sent made (.ok content) after) :
    made = [.receive (size + Envelope.overhead) timeout (.ok (Envelope.frame content))] ∧
      content.length = size ∧ after = 0 := by
  cases receives with
  | accepted opened =>
      obtain ⟨whole, rfl⟩ := Envelope.frame_of_contents opened
      exact ⟨rfl, whole, rfl⟩

/-- What a receive fails on is no answer. -/
theorem Receives.unanswered (small : size ≤ Envelope.maxContent) {error : Error}
    (receives : Receives size timeout sent made (.error error) after) :
    Unanswered timeout size made := by
  have closed {frame : List Byte} {error : Error}
      (closed : Envelope.contents size frame = .error error) :
      Unanswered timeout size [.receive (size + Envelope.overhead) timeout (.ok frame)] := by
    rintro call member ⟨content, rfl, rfl⟩
    injection List.mem_singleton.mp member with _ _ brought
    injection brought with same
    rw [← same, Envelope.contents_frame small] at closed
    cases closed
  generalize same : Except.error error = result at receives
  cases receives with
  | failed failure =>
      rintro call member ⟨content, _, rfl⟩
      cases List.mem_singleton.mp member
  | accepted opened => cases same
  | rejected refused whole => exact closed refused
  | cut refused outcome => exact (closed refused).append (unanswered_discard outcome)

variable {address : Word} {width : Width} {result : Except Error Word}

/-- Calls without an answer before a read change nothing of how it ends. -/
theorem Trusts.preceded (trusts : Trusts timeout address width second result after)
    (before : Unanswered timeout width.bytes first) :
    Trusts timeout address width (first ++ second) result after := by
  cases trusts with
  | answered unanswered whole =>
      rw [← List.append_assoc]
      exact .answered (before.append unanswered) whole
  | failed error unanswered => exact .failed error (before.append unanswered)

theorem Loads.trusts (loads : Loads budget timeout sent address width made result after) :
    Trusts timeout address width made result after := by
  have small : width.bytes ≤ Envelope.maxContent := Nat.le_trans width.bytes_le (by decide)
  cases loads with
  | uncleared failure => exact .failed _ (unanswered_discard _)
  | unsent sending => exact .failed _ ((unanswered_discard _).append (sending.unanswered _))
  | @asked asked heard answer between _ sending receiving =>
      rw [← List.singleton_append]
      refine Trusts.preceded ?_ (unanswered_discard _)
      cases answer with
      | error error =>
          exact .failed _ ((sending.unanswered _).append (receiving.unanswered small))
      | ok content =>
          obtain ⟨earlier, rfl, unanswered⟩ := sending.last width.bytes
          obtain ⟨rfl, whole, rfl⟩ := receiving.answer
          rw [List.append_assoc]
          exact .answered unanswered whole

/-- An exchange that failed brought no answer. -/
theorem Loads.unanswered {error : Error}
    (loads : Loads budget timeout sent address width made (.error error) after) :
    Unanswered timeout width.bytes made := by
  cases loads.trusts with
  | failed _ unanswered => exact unanswered

theorem Fetches.trusts {retries : Nat}
    (fetches : Fetches budget timeout address width retries sent made result after) :
    Trusts timeout address width made result after := by
  induction fetches with
  | last loading => exact loading.trusts
  | answered loading => exact loading.trusts
  | stopped loading => exact loading.trusts
  | unrealigned loading passing handshake =>
      exact .failed _ (loading.unanswered.append (handshake.unanswered _))
  | again loading passing handshake rest ih =>
      exact (ih.preceded (handshake.unanswered _)).preceded loading.unanswered

/-- A read that returns a word ended with an answer that holds it. -/
theorem Trusts.answer {word : Word} (trusts : Trusts timeout address width made (.ok word) after) :
    after = 0 ∧ ∃ earlier content, content.length = width.bytes ∧ word = width.ofBytes content ∧
      made = earlier ++
        [.send (Envelope.frame (Request.read address width).encode) (.ok ()),
          .receive (width.bytes + Envelope.overhead) timeout (.ok (Envelope.frame content))] := by
  cases trusts with
  | answered _ whole => exact ⟨rfl, _, _, whole, rfl, rfl⟩

/-- An answer is the last call of a read, which returns the word that it holds. -/
theorem Trusts.last {content : List Byte} (whole : content.length = width.bytes)
    (trusts : Trusts timeout address width
      (first ++
        .receive (width.bytes + Envelope.overhead) timeout (.ok (Envelope.frame content)) :: second)
      result after) :
    second = [] ∧ result = .ok (width.ofBytes content) := by
  generalize split : first ++ LinkCall.receive (width.bytes + Envelope.overhead) timeout
    (.ok (Envelope.frame content)) :: second = made at trusts
  cases trusts with
  | failed error unanswered =>
      refine absurd ⟨content, whole, rfl⟩ (unanswered (.receive _ _ _) ?_)
      rw [← split]
      exact List.mem_append_right _ (List.mem_cons_self ..)
  | @answered earlier other unanswered same =>
      have small : content.length ≤ Envelope.maxContent :=
        whole ▸ Nat.le_trans width.bytes_le (by decide)
      rcases List.append_eq_append_iff.mp split with
        ⟨more, rfl, tail⟩ | ⟨more, rfl, tail⟩
      · cases more with
        | nil => cases tail
        | cons call more =>
            injection tail with head _
            refine absurd ⟨content, whole, rfl⟩ (unanswered (.receive _ _ _) ?_)
            rw [head]
            exact List.mem_append_right _ (List.mem_cons_self ..)
      · match more with
        | [] => cases tail
        | [call] =>
            injection tail with _ tail
            injection tail with answered ended
            injection answered with _ _ brought
            injection brought with brought
            rw [Envelope.frame_inj small brought.symm]
            exact ⟨ended.symm, rfl⟩
        | _ :: _ :: more => simp at tail

end Channel

namespace Placement

/-- Nothing outside the mask shows in a value that stays in place. -/
theorem shown_direct_outside (word mask : Word) :
    direct.shown word mask &&& ~~~mask = 0#32 := by
  rw [shown, BitVec.and_assoc, BitVec.and_not_self]
  exact BitVec.and_zero

theorem shown_packed_lt (word mask : Word) :
    (packed.shown word mask).toNat < 2 ^ Mask.size mask := by
  rw [← extract_eq]
  exact Mask.gather_lt word mask

end Placement

namespace Session

variable {σ : Type} [Link σ]

/--
A read returns a value only for the whole frame of a content of the right size,
received last of all, right after the request; and the first receive that brings
such a frame ends the read with its value.
-/
theorem readBits_trusted (session : Session (Logged σ)) (address : Word) (width : Width)
    (mask : Word) (placement : Placement) (label : String) :
    let run := readBits address width mask placement label session
    let heard (content : List Byte) : LinkCall :=
      .receive (width.bytes + 4) session.channel.timeout (.ok (Envelope.frame content))
    ∃ made, run.2.link.log = session.link.log ++ made ∧
      (∀ value, run.1 = .ok value →
        Address.Aligned address ∧ run.2.channel.sent = 0 ∧
        (placement = .direct → value &&& ~~~mask = 0#32) ∧
        (placement = .packed → value.toNat < 2 ^ Mask.size mask) ∧
        ∃ earlier content,
          content.length = width.bytes ∧ (Envelope.frame content).length = width.bytes + 4 ∧
          value = placement.shown (BitVec.ofNat 32 (ofLittleEndian content)) mask ∧
          made = earlier ++
            [.send (Envelope.frame (Request.read address width).encode) (.ok ()),
              heard content]) ∧
      (∀ before content rest, content.length = width.bytes →
        made = before ++ heard content :: rest →
        rest = [] ∧
        run.1 = .ok (placement.shown (BitVec.ofNat 32 (ofLittleEndian content)) mask)) := by
  intro run heard
  have ofBytes {content : List Byte} (whole : content.length = width.bytes) :
      width.ofBytes content = BitVec.ofNat 32 (ofLittleEndian content) := by
    rw [Width.ofBytes, ← whole, List.take_length]
  by_cases aligned : Address.Aligned address
  case neg =>
    have refused : run = (.error (.unaligned address), session) :=
      readBits_unaligned aligned width mask placement label
    refine ⟨[], ?_, ?_, ?_⟩
    · rw [refused, List.append_nil]
    · intro value returned
      rw [refused] at returned
      cases returned
    · intro before content rest _ split
      exact absurd split.symm (by simp)
  obtain ⟨made, result, reached, fetching, goes⟩ :=
    Channel.goes_fetch address width session.config.retries session.channel
  have trusts := fetching.trusts
  refine ⟨made, ?_⟩
  cases result with
  | error error =>
      have failed : run = (.error error, { session with channel := reached }) :=
        readBits_failed aligned goes.run mask placement label
      rw [failed]
      refine ⟨goes.log, ?_, ?_⟩
      · intro value returned
        cases returned
      · rintro before content rest whole rfl
        cases (trusts.last whole).2
  | ok word =>
      have succeeded : run = (.ok (placement.shown word mask),
          session.entered reached (·.read address width label)) := by
        rw [← Placement.extract_eq]
        exact readBits_apply aligned goes.run mask placement label
      rw [succeeded]
      refine ⟨goes.log, ?_, ?_⟩
      · intro value returned
        cases returned
        obtain ⟨settled, earlier, content, whole, rfl, split⟩ := trusts.answer
        refine ⟨aligned, settled, ?_, ?_, earlier, content, whole, ?_, ?_, split⟩
        · rintro rfl
          exact Placement.shown_direct_outside _ mask
        · rintro rfl
          exact Placement.shown_packed_lt _ mask
        · rw [Envelope.length_frame, whole, Envelope.overhead]
        · rw [ofBytes whole]
      · rintro before content rest whole rfl
        obtain ⟨ended, same⟩ := trusts.last whole
        cases same
        exact ⟨ended, by rw [ofBytes whole]⟩

/-- A session on a cable that spoils the first answer and flips a bit of the second. -/
def wary : Session (Logged Cable) :=
  start
    { link :=
        { device := { memory := fun _ => 0xcafe1234#32 }
          ahead := [
            {}, {}, { cut := some 3 }, {}, {}, {}, {}, {},
            { noise := [0#8, 0#8, 0#8, 0#8, 4#8] }] } }
    { retries := 2 }

theorem readBits_trusted_wary :
    let run := readBits 0x20000000#32 .word 0x00f00a0f#32 .packed "scattered" wary
    run.1 = .ok 0x3d4#32 ∧ run.2.link.log.length = 14 ∧
      ∃ earlier content, content.length = 4 ∧
        Placement.packed.shown (BitVec.ofNat 32 (ofLittleEndian content)) 0x00f00a0f#32 =
          0x3d4#32 ∧
        run.2.link.log = earlier ++
          [.send (Envelope.frame (Request.read 0x20000000#32 .word).encode) (.ok ()),
            .receive 8 1000 (.ok (Envelope.frame content))] := by
  intro run
  have value : run.1 = .ok 0x3d4#32 := by decide +kernel
  obtain ⟨made, logged, trusted, _⟩ :=
    readBits_trusted wary 0x20000000#32 .word 0x00f00a0f#32 .packed "scattered"
  obtain ⟨_, _, _, _, earlier, content, whole, _, shown, split⟩ := trusted 0x3d4#32 value
  rw [split] at logged
  exact ⟨value, by decide +kernel, earlier, content, whole, shown.symm, logged⟩

end Session

end RegisterLink
