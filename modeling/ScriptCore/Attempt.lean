/-!
# Computations that may fail

An attempt runs over a state and ends with a result or a failure; in both cases it leaves a
state behind, so whatever was done before a failure stays done.
-/
namespace ScriptCore

/-- A computation over the state `σ` that ends with an `α` or fails with an `ε`. -/
def Attempt (σ ε α : Type) : Type := σ → Except ε α × σ

namespace Attempt

variable {σ ε α β : Type}

@[always_inline, inline]
def succeed (a : α) : Attempt σ ε α := fun s => (.ok a, s)

@[always_inline, inline]
def fail (e : ε) : Attempt σ ε α := fun s => (.error e, s)

@[always_inline, inline]
def andThen (x : Attempt σ ε α) (f : α → Attempt σ ε β) : Attempt σ ε β := fun s =>
  match x s with
  | (.ok a, s') => f a s'
  | (.error e, s') => (.error e, s')

instance : Monad (Attempt σ ε) where
  pure := succeed
  bind := andThen

/-- The state at this point. -/
@[always_inline, inline]
def state : Attempt σ ε σ := fun s => (.ok s, s)

@[always_inline, inline]
def update (f : σ → σ) : Attempt σ ε Unit := fun s => (.ok (), f s)

/-- A result that is already known. -/
@[always_inline, inline]
def ofExcept (x : Except ε α) : Attempt σ ε α := fun s => (x, s)

theorem pure_run (a : α) (s : σ) : (pure a : Attempt σ ε α) s = (.ok a, s) := rfl

theorem bind_run (x : Attempt σ ε α) (f : α → Attempt σ ε β) (s : σ) :
    (x >>= f) s = match x s with
      | (.ok a, s') => f a s'
      | (.error e, s') => (.error e, s') := rfl

theorem bind_ok {x : Attempt σ ε α} {f : α → Attempt σ ε β} {s s' : σ} {a : α}
    (h : x s = (.ok a, s')) : (x >>= f) s = f a s' := by
  simp [bind_run, h]

theorem bind_eq_ok {x : Attempt σ ε α} {f : α → Attempt σ ε β} {s s' : σ} {b : β} :
    (x >>= f) s = (.ok b, s') ↔ ∃ a s₁, x s = (.ok a, s₁) ∧ f a s₁ = (.ok b, s') := by
  rw [bind_run]
  constructor
  · intro h
    cases hx : x s with
    | mk result s₁ =>
      rw [hx] at h
      cases result with
      | ok a => exact ⟨a, s₁, rfl, h⟩
      | error e => simp at h
  · rintro ⟨a, s₁, hx, hf⟩
    rw [hx]
    exact hf

theorem pure_eq_ok {a b : α} {s s' : σ} :
    (pure a : Attempt σ ε α) s = (.ok b, s') ↔ a = b ∧ s = s' := by
  simp [pure_run]

theorem ofExcept_eq_ok {x : Except ε α} {a : α} {s s' : σ} :
    (ofExcept x : Attempt σ ε α) s = (.ok a, s') ↔ x = .ok a ∧ s = s' := by
  simp [ofExcept]

theorem bind_error {x : Attempt σ ε α} {f : α → Attempt σ ε β} {s s' : σ} {e : ε}
    (h : x s = (.error e, s')) : (x >>= f) s = (.error e, s') := by
  simp [bind_run, h]

instance : LawfulMonad (Attempt σ ε) :=
  LawfulMonad.mk' (Attempt σ ε)
    (fun x => by
      funext s
      change (match x s with | (.ok a, s') => _ | (.error e, s') => _) = _
      rcases x s with ⟨_ | _, _⟩ <;> rfl)
    (fun _ _ => rfl)
    (fun x f g => by
      funext s
      simp only [bind_run]
      rcases x s with ⟨_ | _, _⟩ <;> rfl)

end Attempt

end ScriptCore
