namespace Univiz.Data

/-! Computations that can raise.

A computation that raises keeps what it has done to the state by then, so a
specification says what holds after a return and what holds after a raise.
-/

variable {ε σ α β : Type} {state : σ}

/-- The computation returns to a state with `returned` or raises in one with `raised`. -/
def Ends (computation : EStateM ε σ α) (state : σ) (returned : α → σ → Prop)
    (raised : σ → Prop) : Prop :=
  match computation state with
  | .ok value after => returned value after
  | .error _ after => raised after

variable {returned returned' : α → σ → Prop} {raised raised' : σ → Prop}

theorem ends_bind {first : EStateM ε σ β} {next : β → EStateM ε σ α} :
    Ends (first >>= next) state returned raised ↔
      Ends first state (fun value after => Ends (next value) after returned raised) raised := by
  simp only [Ends, bind, EStateM.bind]
  cases first state <;> exact Iff.rfl

theorem ends_tryCatch {first handler : EStateM ε σ α} :
    Ends (tryCatch first fun _ => handler) state returned raised ↔
      Ends first state returned fun after => Ends handler after returned raised := by
  simp only [Ends, tryCatch, tryCatchThe, MonadExceptOf.tryCatch]
  delta EStateM.tryCatch
  cases first state <;> exact Iff.rfl

theorem Ends.mono {computation : EStateM ε σ α} (ends : Ends computation state returned raised)
    (onReturn : ∀ value after, returned value after → returned' value after)
    (onRaise : ∀ after, raised after → raised' after) :
    Ends computation state returned' raised' := by
  unfold Ends at ends ⊢
  split
  · rename_i ran
    rw [ran] at ends
    exact onReturn _ _ ends
  · rename_i ran
    rw [ran] at ends
    exact onRaise _ ends

/-! A computation without a state. -/

theorem bind_eq_ok_iff {first : Except ε α} {next : α → Except ε β} {result : β} :
    (first >>= next) = .ok result ↔ ∃ value, first = .ok value ∧ next value = .ok result := by
  cases first with
  | error message =>
      refine iff_of_false nofun ?_
      rintro ⟨value, ⟨⟩, _⟩
  | ok value => exact ⟨fun ran => ⟨value, rfl, ran⟩, fun ⟨_, rfl, ran⟩ => ran⟩

theorem map_eq_ok_iff {first : Except ε α} {convert : α → β} {result : β} :
    first.map convert = .ok result ↔ ∃ value, first = .ok value ∧ convert value = result := by
  cases first <;> simp [Except.map]

end Univiz.Data
