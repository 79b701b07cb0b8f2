/-
# Computations with a state, at a state

What the building blocks of a computation that keeps a state and may be ended by an
error do when they are started in a state, and what it says of two computations in a row
how they end. Every other statement about such a computation starts from these facts and
never opens the monad.

Key theorems: `Effects.bind_apply`, `Effects.ofExcept_bind_apply`, `Effects.bind_eq_ok`,
`Effects.bind_eq_error`.
-/
import Mathlib.Logic.Basic

namespace VoxelBlueprint
namespace Effects

variable {ε σ α β : Type}

/-- Whether a computation ends in a given way can be decided. -/
instance decidableEqResult [DecidableEq ε] [DecidableEq σ] [DecidableEq α] :
    DecidableEq (EStateM.Result ε σ α)
  | .ok a s, .ok b t => decidable_of_iff (a = b ∧ s = t) (by simp)
  | .error d s, .error e t => decidable_of_iff (d = e ∧ s = t) (by simp)
  | .ok _ _, .error _ _ => isFalse nofun
  | .error _ _, .ok _ _ => isFalse nofun

/-- What follows a computation starts in the state that it leaves. -/
theorem bind_apply (x : EStateM ε σ α) (f : α → EStateM ε σ β) (s : σ) :
    (x >>= f) s =
      match x s with
      | .ok a s => f a s
      | .error e s => .error e s := rfl

theorem map_apply (f : α → β) (x : EStateM ε σ α) (s : σ) :
    (f <$> x) s =
      match x s with
      | .ok a s => .ok (f a) s
      | .error e s => .error e s := rfl

theorem get_bind_apply (f : σ → EStateM ε σ α) (s : σ) : (get >>= f) s = f s s := rfl

theorem modify_bind_apply (g : σ → σ) (f : PUnit → EStateM ε σ α) (s : σ) :
    (modify g >>= f) s = f ⟨⟩ (g s) := rfl

theorem ofExcept_bind_apply (x : Except ε α) (f : α → EStateM ε σ β) (s : σ) :
    (MonadExcept.ofExcept x >>= f) s =
      match x with
      | .ok a => f a s
      | .error e => .error e s := by
  cases x <;> rfl

/-- What handles an error starts in the state that the error leaves. -/
theorem tryCatch_apply (x : EStateM ε σ α) (handle : ε → EStateM ε σ α) (s : σ) :
    (tryCatch x handle) s =
      match x s with
      | .ok a s => .ok a s
      | .error e s => handle e s := by
  show EStateM.tryCatch x handle s = _
  unfold EStateM.tryCatch
  cases x s <;> rfl

theorem bind_apply_eq_ok {x : EStateM ε σ α} {f : α → EStateM ε σ β} {s s' : σ} {b : β}
    (h : (x >>= f) s = .ok b s') : ∃ a t, x s = .ok a t ∧ f a t = .ok b s' := by
  rw [bind_apply] at h
  cases hx : x s with
  | error e t => rw [hx] at h; cases h
  | ok a t => rw [hx] at h; exact ⟨a, t, rfl, h⟩

/-- A computation that is ended under a condition goes on if the condition does not hold. -/
theorem unless_apply (p : Prop) [Decidable p] (e : ε) (f : PUnit → EStateM ε σ α) (s : σ) :
    (if p then throw e >>= f else f ⟨⟩) s = if p then .error e s else f ⟨⟩ s := by
  split <;> rfl

/-! ### Computations that may only fail -/

theorem bind_eq_ok {x : Except ε α} {f : α → Except ε β} {b : β} (h : (x >>= f) = .ok b) :
    ∃ a, x = .ok a ∧ f a = .ok b := by
  cases x with
  | error e => cases h
  | ok a => exact ⟨a, rfl, h⟩

theorem bind_eq_error {x : Except ε α} {f : α → Except ε β} {e : ε}
    (h : (x >>= f) = .error e) : x = .error e ∨ ∃ a, x = .ok a ∧ f a = .error e := by
  cases x with
  | error _ =>
    cases h
    exact .inl rfl
  | ok a => exact .inr ⟨a, rfl, h⟩

/-- Computations that give the same values fail together. -/
theorem exists_error_iff {x y : Except ε α} (h : ∀ a, x = .ok a ↔ y = .ok a) :
    (∃ e, x = .error e) ↔ ∃ e, y = .error e := by
  cases x with
  | ok a => rw [(h a).mp rfl]
  | error e =>
    cases y with
    | ok a => cases (h a).mpr rfl
    | error e' => exact ⟨fun _ => ⟨e', rfl⟩, fun _ => ⟨e, rfl⟩⟩

theorem toOption_eq_some {x : Except ε α} {a : α} : x.toOption = some a ↔ x = .ok a := by
  cases x <;> simp [Except.toOption]

theorem toOption_map (f : α → β) (x : Except ε α) : (x.map f).toOption = x.toOption.map f := by
  cases x <;> rfl

end Effects
end VoxelBlueprint
