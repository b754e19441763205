import RegisterLink.Action

/-!
# Invariants of actions

An action keeps an invariant when it leaves it true wherever it is true before,
whether the action fails or not.  Actions are put together from parts that keep
it, so one fact about each primitive carries over to every run.
-/

namespace RegisterLink

namespace Action

variable {ε δ σ τ α β : Type}

/-- The action leaves the invariant true, whatever comes of it. -/
def Keeps (invariant : σ → Prop) (action : Action ε σ α) : Prop :=
  ∀ state, invariant state → invariant (action state).2

variable {invariant : σ → Prop}

theorem Keeps.pure (value : α) : Keeps invariant (pure value : Action ε σ α) :=
  fun _ holds => holds

theorem Keeps.throw (error : ε) : Keeps invariant (throw error : Action ε σ α) :=
  fun _ holds => holds

theorem Keeps.get : Keeps invariant (get : Action ε σ σ) :=
  fun _ holds => holds

theorem Keeps.ofExcept (result : Except ε α) : Keeps invariant (ofExcept (σ := σ) result) :=
  fun _ holds => holds

/-- A step whose outcome is known is no step. -/
theorem Keeps.known {value : α} {rest : α → Action ε σ β} (kept : Keeps invariant (rest value)) :
    Keeps invariant (Action.ofExcept (.ok value) >>= rest) :=
  kept

theorem Keeps.bind {action : Action ε σ α} {rest : α → Action ε σ β}
    (first : Keeps invariant action) (after : ∀ value, Keeps invariant (rest value)) :
    Keeps invariant (action >>= rest) := by
  intro state holds
  have reached := first state holds
  rw [bind_apply]
  rcases result : action state with ⟨_ | value, state⟩
  · rwa [result] at reached
  · rw [result] at reached
    exact after value state reached

theorem Keeps.map {action : Action ε σ α} (kept : Keeps invariant action) (change : α → β) :
    Keeps invariant (change <$> action) :=
  kept.bind fun value => .pure (change value)

theorem Keeps.update {change : σ → σ} (kept : ∀ state, invariant state → invariant (change state)) :
    Keeps invariant (update (ε := ε) change) :=
  kept

theorem Keeps.outcome {action : Action ε σ α} (kept : Keeps invariant action) :
    Keeps invariant (outcome (δ := δ) action) :=
  kept

theorem Keeps.raise {action : Action ε σ α} (kept : Keeps invariant action) (embed : ε → δ) :
    Keeps invariant (raise embed action) :=
  kept

/-- An action on a part keeps of the whole what it keeps of the part. -/
theorem Keeps.within {action : Action ε σ α} (kept : Keeps invariant action) {whole : τ → Prop}
    {part : τ → σ} {update : τ → σ → τ} (inside : ∀ state, whole state → invariant (part state))
    (back : ∀ state reached, whole state → invariant reached → whole (update state reached)) :
    Keeps whole (action.within part update) :=
  fun state holds => back state _ holds (kept (part state) (inside state holds))

end Action

end RegisterLink
