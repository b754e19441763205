/-!
# Actions

An action runs on a state and may fail.  A failed action keeps the state it
reached, since bytes once sent are not taken back.
-/

namespace RegisterLink

abbrev Action (ε σ α : Type) := ExceptT ε (StateM σ) α

namespace Action

variable {ε δ σ τ α β : Type}

/-- Runs an action on a part of a larger state. -/
def within (part : τ → σ) (update : τ → σ → τ) (action : Action ε σ α) : Action ε τ α :=
  fun whole =>
    let (result, reached) := action (part whole)
    (result, update whole reached)

/-- Reads the errors of an action as errors of another kind. -/
def raise (embed : ε → δ) (action : Action ε σ α) : Action δ σ α :=
  fun state =>
    let (result, reached) := action state
    (result.mapError embed, reached)

/-- Runs an action and hands its outcome on, failed or not. -/
def outcome (action : Action ε σ α) : Action δ σ (Except ε α) :=
  fun state =>
    let (result, reached) := action state
    (.ok result, reached)

/-- An outcome already known, as an action that leaves the state alone. -/
def ofExcept (result : Except ε α) : Action ε σ α := fun state => (result, state)

/-- A change of the state that cannot fail. -/
def update (change : σ → σ) : Action ε σ Unit := fun state => (.ok (), change state)

/-- The rest of an action sees the state that its beginning reached. -/
theorem bind_apply (action : Action ε σ α) (rest : α → Action ε σ β) (state : σ) :
    (action >>= rest) state =
      match action state with
      | (.ok value, reached) => rest value reached
      | (.error error, reached) => (.error error, reached) := by
  change (match action state with
    | (result, reached) => ExceptT.bindCont rest result reached) = _
  rcases action state with ⟨_ | _, _⟩ <;> rfl

theorem pure_apply (value : α) (state : σ) :
    (pure value : Action ε σ α) state = (.ok value, state) := rfl

theorem throw_apply (error : ε) (state : σ) :
    (throw error : Action ε σ α) state = (.error error, state) := rfl

theorem get_apply (state : σ) : (get : Action ε σ σ) state = (.ok state, state) := rfl

end Action

end RegisterLink
