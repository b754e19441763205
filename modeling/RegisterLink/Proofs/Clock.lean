import RegisterLink.Link
import RegisterLink.Link.Bench
import RegisterLink.Proofs.Access
import RegisterLink.Proofs.Keeps

/-!
# Time on a link

What the calls of a link keep true of it, every exchange keeps true.  So where no
call turns the clock back no exchange does, and since each exchange begins by
dropping the input, an exchange takes at least as long as that.
-/

namespace RegisterLink

open RegisterLink.Action (Keeps)

variable {σ α : Type}

/-- What the first part of an action establishes and the rest keeps is true in the end. -/
theorem Action.Keeps.after {ε β : Type} (invariant : σ → Prop) {action : Action ε σ α}
    {rest : α → Action ε σ β} {state : σ} (first : invariant (action state).2)
    (kept : ∀ value, Keeps invariant (rest value)) : invariant ((action >>= rest) state).2 := by
  rw [Action.bind_apply]
  rcases result : action state with ⟨_ | value, reached⟩
  · rwa [result] at first
  · rw [result] at first
    exact kept value reached first

/-- No call of the link makes it false. -/
structure Lasting [Link σ] (kept : σ → Prop) : Prop where
  send (data : List Byte) : Keeps kept (Link.send data)
  receive (size timeout : Nat) : Keeps kept (Link.receive size timeout)
  discard : Keeps kept Link.discard

namespace Lasting

variable {kept : σ → Prop}

theorem onLink {action : Action LinkFailure σ α} (keeps : Keeps kept action) :
    Keeps (fun channel => kept channel.link) (Channel.onLink action) :=
  (keeps.raise Error.link).within (fun _ holds => holds) fun _ _ _ holds => holds

variable [Link σ]

theorem clear (lasting : Lasting kept) : Keeps (fun channel => kept channel.link) Channel.clear :=
  onLink lasting.discard

theorem resync (lasting : Lasting kept) :
    Keeps (fun channel => kept channel.link) Channel.resync := by
  refine Keeps.bind (.update fun _ holds => holds) fun _ => (onLink (lasting.send _)).bind fun _ =>
    Keeps.get.bind fun channel => (onLink (lasting.receive _ _)).bind fun answer => ?_
  split
  · exact .pure ()
  · exact .throw _

theorem realign (lasting : Lasting kept) :
    Keeps (fun channel => kept channel.link) Channel.realign := by
  refine lasting.resync.outcome.bind fun outcome => ?_
  split
  · exact .throw _
  · exact .pure ()

theorem posting (lasting : Lasting kept) (frame : List Byte) :
    Keeps (fun channel => kept channel.link) (Channel.post frame) :=
  Keeps.bind (.update fun _ holds => holds) fun _ => onLink (lasting.send frame)

theorem sending (lasting : Lasting kept) (content : List Byte) :
    Keeps (fun channel => kept channel.link) (Channel.send content) := by
  refine (Keeps.ofExcept _).bind fun frame => Keeps.get.bind fun channel => ?_
  split
  · exact .throw _
  · dsimp only
    split
    · exact lasting.realign.bind fun _ => lasting.posting frame
    · exact lasting.posting frame

theorem receiving (lasting : Lasting kept) (size : Nat) :
    Keeps (fun channel => kept channel.link) (Channel.receive size) := by
  refine Keeps.get.bind fun channel => (onLink (lasting.receive _ _)).bind fun frame => ?_
  split
  · exact Keeps.bind (.update fun _ holds => holds) fun _ => .pure _
  · exact lasting.clear.bind fun _ => .throw _
  · exact .throw _

/-- What follows the dropping of the input in an exchange. -/
theorem answering (lasting : Lasting kept) (address : Word) (width : Width) :
    Keeps (fun channel => kept channel.link) (do
      Channel.send (Request.read address width).encode
      let content ← Channel.receive width.bytes
      pure (width.ofBytes content)) :=
  (lasting.sending _).bind fun _ => (lasting.receiving _).bind fun _ => .pure _

theorem load (lasting : Lasting kept) (address : Word) (width : Width) :
    Keeps (fun channel => kept channel.link) (Channel.load address width) :=
  lasting.clear.bind fun _ => lasting.answering address width

theorem fetch (lasting : Lasting kept) (address : Word) (width : Width) (retries : Nat) :
    Keeps (fun channel => kept channel.link) (Channel.fetch address width retries) := by
  induction retries with
  | zero => exact lasting.load address width
  | succ retries ih =>
      refine (lasting.load address width).outcome.bind fun outcome => ?_
      split
      · exact .pure _
      · exact .throw _
      · exact lasting.realign.bind fun _ => ih

end Lasting

variable [Clock σ]

/-- The link runs, and it is this time or later. -/
structure Since (running : σ → Prop) (time : Nat) (link : σ) : Prop where
  runs : running link
  past : time ≤ Clock.now link

/--
A running link goes on running whatever is called on it and comes of it.  No
call turns its clock back, and a receive or a discard takes at least one tick.
-/
structure Ticking [Link σ] (tick : Nat) (running : σ → Prop) : Prop where
  send (data : List Byte) {link : σ} (runs : running link) :
    Since running (Clock.now link) (Link.send data link).2
  receive (size timeout : Nat) {link : σ} (runs : running link) :
    Since running (Clock.now link + tick) (Link.receive size timeout link).2
  discard {link : σ} (runs : running link) :
    Since running (Clock.now link + tick) (Link.discard link).2

namespace Ticking

variable [Link σ] {tick : Nat} {running : σ → Prop}

theorem lasting (ticking : Ticking tick running) (time : Nat) : Lasting (Since running time) where
  send data link since := by
    have reached := ticking.send data since.runs
    exact ⟨reached.runs, Nat.le_trans since.past reached.past⟩
  receive size timeout link since := by
    have reached := ticking.receive size timeout since.runs
    exact ⟨reached.runs, Nat.le_trans since.past (Nat.le_trans (Nat.le_add_right _ _) reached.past)⟩
  discard link since := by
    have reached := ticking.discard since.runs
    exact ⟨reached.runs, Nat.le_trans since.past (Nat.le_trans (Nat.le_add_right _ _) reached.past)⟩

/-- An exchange takes a tick, whatever comes of it. -/
theorem load (ticking : Ticking tick running) (address : Word) (width : Width)
    {channel : Channel σ} (runs : running channel.link) :
    Since running (Clock.now channel.link + tick)
      (Channel.load address width channel).2.link := by
  have cleared : Since running (Clock.now channel.link + tick) (Channel.clear channel).2.link :=
    ticking.discard runs
  exact Keeps.after (fun reached : Channel σ => Since running _ reached.link) cleared fun _ =>
    (ticking.lasting _).answering address width

theorem fetch (ticking : Ticking tick running) (address : Word) (width : Width) (retries : Nat)
    {channel : Channel σ} (runs : running channel.link) :
    Since running (Clock.now channel.link + tick)
      (Channel.fetch address width retries channel).2.link := by
  have loaded := ticking.load address width runs
  cases retries with
  | zero => exact loaded
  | succ retries =>
      -- the first exchange has taken the tick, and nothing after it turns the clock back
      refine Keeps.after (fun reached : Channel σ => Since running _ reached.link) loaded
        fun outcome => ?_
      split
      · exact .pure _
      · exact .throw _
      · exact (ticking.lasting _).realign.bind fun _ => (ticking.lasting _).fetch _ _ retries

/-- A read of a field that is aligned takes a tick. -/
theorem readField (ticking : Ticking tick running) {field : Field}
    (aligned : Address.Aligned field.register.address) {session : Session σ}
    (runs : running session.link) :
    Since running (Clock.now session.link + tick) (Session.readField field session).2.link := by
  have fetched : Since running (Clock.now session.link + tick)
      (Channel.fetch field.register.address field.register.width session.config.retries
        session.channel).2.link :=
    ticking.fetch field.register.address field.register.width session.config.retries runs
  rcases called : Channel.fetch field.register.address field.register.width session.config.retries
      session.channel with ⟨error | word, reached⟩
  · rw [called] at fetched
    rw [Session.readField, Session.readBits_failed aligned called]
    exact fetched
  · rw [called] at fetched
    rw [Session.readField, Session.readBits_apply aligned called]
    exact fetched

end Ticking

/-- The clock of the link can be set forward. -/
def Advances (σ : Type) [Clock σ] : Prop :=
  ∀ (time : Nat) (link : σ), Clock.now (Clock.advance time link) = Clock.now link + time

namespace Bench

variable {tick time : Nat}

/-- A tick of the bench takes this long at least, and no change of the link turns its clock back. -/
structure Runs (tick : Nat) (bench : Bench σ) : Prop where
  tick : tick ≤ bench.tick
  forward : ∀ change ∈ bench.changes, ∀ link, Clock.now link ≤ Clock.now (change.2 link)

/-- A call that fails by a fault changes nothing that time depends on. -/
theorem keeps_call {action : Action LinkFailure (Bench σ) α} {time : Nat}
    (kept : Keeps (Since (Runs tick) time) action) (kind : CallKind) :
    Keeps (Since (Runs tick) time) (call kind action) := by
  intro bench since
  rw [call]
  split
  · exact ⟨⟨since.runs.tick, since.runs.forward⟩, since.past⟩
  · exact kept bench since

theorem keeps_pass {action : Action LinkFailure σ α}
    (forward : ∀ link, Clock.now link ≤ Clock.now (action link).2) :
    Keeps (Since (Runs tick) time) (pass action) :=
  fun bench since =>
    ⟨⟨since.runs.tick, since.runs.forward⟩, Nat.le_trans since.past (forward bench.link)⟩

theorem keeps_limit (size : Nat) :
    Keeps (Since (σ := Bench σ) (Runs tick) time) (limit size) := by
  intro bench since
  rw [limit]
  split
  · exact ⟨⟨since.runs.tick, since.runs.forward⟩, since.past⟩
  · exact since

theorem keeps_disturb (received : List Byte) :
    Keeps (Since (σ := Bench σ) (Runs tick) time) (disturb received) := by
  intro bench since
  unfold disturb
  split
  · exact ⟨⟨since.runs.tick, since.runs.forward⟩, since.past⟩
  · exact since

theorem since_elapse (advances : Advances σ) {bench : Bench σ}
    (since : Since (Runs tick) time bench) : Since (Runs tick) (time + tick) bench.elapse where
  runs := ⟨since.runs.tick, since.runs.forward⟩
  past := by
    change time + tick ≤ Clock.now (Clock.advance bench.tick bench.link)
    rw [advances]
    exact Nat.add_le_add since.past since.runs.tick

theorem now_le_changed {changes : List (Nat × (σ → σ))}
    (forward : ∀ change ∈ changes, ∀ link, Clock.now link ≤ Clock.now (change.2 link)) (link : σ) :
    Clock.now link ≤ Clock.now (changes.foldl (fun link change => change.2 link) link) := by
  induction changes generalizing link with
  | nil => exact Nat.le_refl _
  | cons change changes ih =>
      have rest := ih fun other member => forward other (List.mem_cons_of_mem change member)
      exact Nat.le_trans (forward change List.mem_cons_self link) (rest (change.2 link))

theorem since_countReceive {bench : Bench σ} (since : Since (Runs tick) time bench) :
    Since (Runs tick) time bench.countReceive where
  runs := by
    refine ⟨since.runs.tick, fun change member => ?_⟩
    obtain ⟨old, kept, rfl⟩ := List.mem_map.mp member
    exact since.runs.forward old (List.mem_filter.mp kept).1
  past := by
    refine Nat.le_trans since.past (now_le_changed (fun change member => ?_) bench.link)
    exact since.runs.forward change (List.mem_filter.mp member).1

/-- A bench ticks over any link whose own calls do not turn its clock back. -/
theorem ticking [Link σ] (steady : Ticking 0 (fun _ : σ => True)) (advances : Advances σ) :
    Ticking tick (Runs (σ := σ) tick) where
  send data bench runs :=
    keeps_call (keeps_pass fun _ => (steady.send data trivial).past) .send bench
      ⟨runs, Nat.le_refl _⟩
  receive size timeout bench runs := by
    refine since_countReceive (since_elapse advances ?_)
    refine keeps_call ?_ .receive bench ⟨runs, Nat.le_refl _⟩
    refine (keeps_limit size).bind fun limited => Keeps.bind ?_ fun received =>
      keeps_disturb received
    exact keeps_pass fun _ => (steady.receive limited timeout trivial).past
  discard {bench} runs := by
    refine since_elapse advances ?_
    exact keeps_call (keeps_pass fun _ => (steady.discard trivial).past) .discard bench
      ⟨runs, Nat.le_refl _⟩

end Bench

end RegisterLink
