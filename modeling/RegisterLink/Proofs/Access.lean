import RegisterLink.Proofs.Rank
import RegisterLink.Session.Command

/-!
# What accesses come down to

Every access is a masked read or a masked write at an address.  Either refuses
an unaligned address before it does anything, and enters itself into the trace
only after its exchange has succeeded.  What a mask does to the value is said bit
by bit, by ranks and without the walk over the mask.
-/

namespace RegisterLink

namespace Placement

/-- The word to be written: a selected bit is the bit of the value at its rank. -/
def placed : Placement → (value mask : Word) → Word
  | packed, value, mask =>
      .ofBits fun k => mask.getLsbD k && value.getLsbD (Mask.rank mask k)
  | direct, value, _ => value

/-- The value to be read: its bit `j` is the selected bit of rank `j`. -/
def shown : Placement → (word mask : Word) → Word
  | packed, word, mask =>
      .ofBits fun j => (List.range 32).any fun k =>
        mask.getLsbD k && Mask.rank mask k == j && word.getLsbD k
  | direct, word, mask => word &&& mask

theorem position_eq (placement : Placement) (value mask : Word) :
    placement.position value mask = placement.placed value mask := by
  cases placement with
  | packed =>
      apply BitVec.eq_of_getLsbD_eq
      intro k bound
      rw [position, placed, Mask.getLsbD_scatter, Word.getLsbD_ofBits _ bound]
  | direct => rfl

theorem extract_eq (placement : Placement) (word mask : Word) :
    placement.extract word mask = placement.shown word mask := by
  cases placement with
  | packed =>
      apply BitVec.eq_of_getLsbD_eq
      intro j bound
      rw [extract, shown, Word.getLsbD_ofBits _ bound, Bool.eq_iff_iff, Mask.getLsbD_gather,
        List.any_eq_true]
      constructor
      · rintro ⟨k, selected, ranked, set⟩
        refine ⟨k, List.mem_range.mpr (BitVec.lt_of_getLsbD selected), ?_⟩
        simp only [selected, ranked, set, beq_self_eq_true, Bool.and_self]
      · rintro ⟨k, _, taken⟩
        simp only [Bool.and_eq_true, beq_iff_eq] at taken
        exact ⟨k, taken.1.1, taken.1.2, taken.2⟩
  | direct => rfl

end Placement

instance decidableEqExcept {ε α : Type} [DecidableEq ε] [DecidableEq α] :
    DecidableEq (Except ε α)
  | .ok value, .ok other => decidable_of_iff (value = other) (by rw [Except.ok.injEq])
  | .error failure, .error other => decidable_of_iff (failure = other) (by rw [Except.error.injEq])
  | .ok _, .error _ => isFalse nofun
  | .error _, .ok _ => isFalse nofun

/-- What the commands come down to. -/
inductive Access where
  | read (address : Word) (width : Width) (mask : Word) (placement : Placement) (label : String)
  | write (address : Word) (width : Width) (mask value : Word) (placement : Placement)
      (label : String)
  | wait (field : Field) (awaited : Word) (timeout : Nat)
  | resync
  | clear
  | barrier

def Command.access : Command → Access
  | read register => .read register.address register.width register.mask .direct register.path
  | write register value =>
      .write register.address register.width register.mask value .direct
        (register.path ++ " = " ++ Literal.hexadecimal value register.width.bits)
  | reset register =>
      .write register.address register.width register.mask register.reset .direct
        (register.path ++ " = " ++ Literal.hexadecimal register.reset register.width.bits)
  | readField field =>
      .read field.register.address field.register.width field.mask .packed field.path
  | writeField field value =>
      .write field.register.address field.register.width field.mask value .packed
        (field.path ++ " = " ++ Literal.binary value field.bits)
  | resetField field =>
      .write field.register.address field.register.width field.mask field.register.reset .direct
        (field.path ++ " = " ++ Literal.binary field.reset field.bits)
  | readBits address width mask placement label => .read address width mask placement label
  | writeBits address width mask value placement label =>
      .write address width mask value placement label
  | awaitField field awaited timeout => .wait field awaited timeout
  | resync => .resync
  | clear => .clear
  | barrier => .barrier

/-- An action followed by a function of its value. -/
theorem Action.map_apply {ε σ α β : Type} (change : α → β) (action : Action ε σ α) (state : σ) :
    (change <$> action) state = ((action state).1.map change, (action state).2) := by
  change (action >>= fun value => pure (change value)) state = _
  rw [bind_apply]
  rcases action state with ⟨_ | _, _⟩ <;> rfl

namespace Session

variable {σ : Type} {session : Session σ}

/-- An exchange on the channel changes nothing else of the session. -/
theorem onChannel_apply {α : Type} {action : Action Error (Channel σ) α} {result : Except Error α}
    {reached : Channel σ} (called : action session.channel = (result, reached)) :
    onChannel action session = (result, { session with channel := reached }) := by
  simp only [onChannel, Action.within, called]

/-- What fails without a value fails with one. -/
theorem silent_apply (access : Action Error (Session σ) Unit) (session : Session σ) :
    silent access session = ((access session).1.map fun _ => none, (access session).2) := by
  rw [silent, Action.bind_apply]
  rcases access session with ⟨_ | _, _⟩ <;> rfl

variable [Link σ]

/-- Makes an access, with the value that it reads, if it reads one. -/
def make [Clock σ] : Access → Action Error (Session σ) (Option Word)
  | .read address width mask placement label =>
      some <$> readBits address width mask placement label
  | .write address width mask value placement label =>
      silent (writeBits address width mask value placement label)
  | .wait field awaited timeout => silent (awaitField field awaited timeout)
  | .resync => silent resync
  | .clear => silent clear
  | .barrier => silent barrier

theorem make_access [Clock σ] (command : Command) :
    make (σ := σ) command.access = perform command := by
  cases command <;> rfl

variable {address : Word}

theorem readBits_unaligned (unaligned : ¬ Address.Aligned address) (width : Width) (mask : Word)
    (placement : Placement) (label : String) :
    readBits address width mask placement label session =
      (.error (.unaligned address), session) := by
  rw [readBits, aligned, if_neg unaligned, Action.throw_apply]

theorem writeBits_unaligned (unaligned : ¬ Address.Aligned address) (width : Width)
    (mask value : Word) (placement : Placement) (label : String) :
    writeBits address width mask value placement label session =
      (.error (.unaligned address), session) := by
  rw [writeBits, aligned, if_neg unaligned, Action.throw_apply]

/-- The session after an exchange that succeeded, which shows in an open recording. -/
def entered (session : Session σ) (channel : Channel σ) (entry : Trace → Trace) : Session σ :=
  { session with channel, trace := session.trace.map entry }

theorem readBits_apply (aligned : Address.Aligned address) {width : Width} {word : Word}
    {reached : Channel σ}
    (called : Channel.fetch address width session.config.retries session.channel =
      (.ok word, reached))
    (mask : Word) (placement : Placement) (label : String) :
    readBits address width mask placement label session =
      (.ok (placement.extract word mask),
        session.entered reached (·.read address width label)) := by
  simp only [readBits, Session.aligned, if_pos aligned, Action.bind_apply, Action.get_apply,
    onChannel, Action.within, called, note, Action.update, Action.pure_apply, entered]

theorem readBits_failed (aligned : Address.Aligned address) {width : Width} {error : Error}
    {reached : Channel σ}
    (called : Channel.fetch address width session.config.retries session.channel =
      (.error error, reached))
    (mask : Word) (placement : Placement) (label : String) :
    readBits address width mask placement label session =
      (.error error, { session with channel := reached }) := by
  simp only [readBits, Session.aligned, if_pos aligned, Action.bind_apply, Action.get_apply,
    onChannel, Action.within, called]

theorem writeBits_apply (aligned : Address.Aligned address) {width : Width} {mask value : Word}
    {placement : Placement} {reached : Channel σ}
    (called : Channel.send
      (Request.write address width mask (placement.position value mask)).encode session.channel =
        (.ok (), reached))
    (label : String) :
    writeBits address width mask value placement label session =
      (.ok (), session.entered reached
        (·.write address width mask (placement.position value mask) label)) := by
  simp only [writeBits, Session.aligned, if_pos aligned, Action.bind_apply, onChannel,
    Action.within, called, note, Action.update, entered]

theorem writeBits_failed (aligned : Address.Aligned address) {width : Width} {mask value : Word}
    {placement : Placement} {error : Error} {reached : Channel σ}
    (called : Channel.send
      (Request.write address width mask (placement.position value mask)).encode session.channel =
        (.error error, reached))
    (label : String) :
    writeBits address width mask value placement label session =
      (.error error, { session with channel := reached }) := by
  simp only [writeBits, Session.aligned, if_pos aligned, Action.bind_apply, onChannel,
    Action.within, called]

end Session

end RegisterLink
