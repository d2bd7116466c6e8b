import Mathlib.Data.List.Forall2
import ScriptCore.Attempt

/-!
# Computations that match

Two computations match when from matching states they come to matching states, and both end with
matching results or both fail with matching errors. What is looked up matches when both find
something that matches, or neither finds anything (`Option.Rel`).
-/
namespace ScriptCore

section Options

variable {α α' β β' : Type} {related : α → α' → Prop} {results : β → β' → Prop} {x : Option α}
  {x' : Option α'}

theorem rel_cases (found : Option.Rel related x x') :
    (x = none ∧ x' = none) ∨ ∃ a a', x = some a ∧ x' = some a' ∧ related a a' := by
  cases found with
  | none => exact .inl ⟨rfl, rfl⟩
  | some same => exact .inr ⟨_, _, rfl, rfl, same⟩

theorem rel_map {f : α → β} {f' : α' → β'} (found : Option.Rel related x x')
    (next : ∀ a a', related a a' → results (f a) (f' a')) :
    Option.Rel results (x.map f) (x'.map f') := by
  cases found with
  | none => exact .none
  | some same => exact .some (next _ _ same)

theorem rel_bind {f : α → Option β} {f' : α' → Option β'} (found : Option.Rel related x x')
    (next : ∀ a a', related a a' → Option.Rel results (f a) (f' a')) :
    Option.Rel results (x.bind f) (x'.bind f') := by
  cases found with
  | none => exact .none
  | some same => exact next _ _ same

theorem rel_bind_self {f : α → Option β} {f' : α → Option β'} (x : Option α)
    (next : ∀ a, Option.Rel results (f a) (f' a)) : Option.Rel results (x.bind f) (x.bind f') := by
  cases x with
  | none => exact .none
  | some a => exact next a

theorem rel_getD {a : α} {a' : α'} (found : Option.Rel related x x') (same : related a a') :
    related (x.getD a) (x'.getD a') := by
  cases found with
  | none => exact same
  | some found => exact found

/-- The ends of matching lists match, or both lists are empty. -/
theorem rel_getLast? {items : List α} {items' : List α'}
    (same : List.Forall₂ related items items') :
    Option.Rel related items.getLast? items'.getLast? := by
  rw [List.getLast?_eq_head?_reverse, List.getLast?_eq_head?_reverse]
  have reversed := List.forall₂_reverse_iff.mpr same
  generalize items.reverse = last at reversed ⊢
  generalize items'.reverse = last' at reversed ⊢
  cases reversed with
  | nil => exact .none
  | cons same _ => exact .some same

end Options

/-- Two results that match, or two errors that do. -/
inductive Outcome {ε ε' α α' : Type} (errors : ε → ε' → Prop) (results : α → α' → Prop) :
    Except ε α → Except ε' α' → Prop
  | ok {a : α} {a' : α'} (same : results a a') : Outcome errors results (.ok a) (.ok a')
  | error {e : ε} {e' : ε'} (same : errors e e') : Outcome errors results (.error e) (.error e')

namespace Outcome

variable {ε ε' α α' β β' : Type} {errors : ε → ε' → Prop} {results : α → α' → Prop}
  {outcomes : β → β' → Prop} {x : Except ε α} {x' : Except ε' α'}

theorem ends (outcome : Outcome errors results x x') :
    (∃ a a', x = .ok a ∧ x' = .ok a' ∧ results a a') ∨
      ∃ e e', x = .error e ∧ x' = .error e' ∧ errors e e' := by
  cases outcome with
  | ok same => exact .inl ⟨_, _, rfl, rfl, same⟩
  | error same => exact .inr ⟨_, _, rfl, rfl, same⟩

theorem eq_iff {x x' : Except ε α} : Outcome Eq Eq x x' ↔ x = x' := by
  constructor
  · rintro (rfl | rfl) <;> rfl
  · rintro rfl
    cases x with
    | ok => exact .ok rfl
    | error => exact .error rfl

theorem bind {next : α → Except ε β} {next' : α' → Except ε' β'}
    (first : Outcome errors results x x')
    (second : ∀ a a', results a a' → Outcome errors outcomes (next a) (next' a')) :
    Outcome errors outcomes (x >>= next) (x' >>= next') := by
  cases first with
  | ok same => exact second _ _ same
  | error same => exact .error same

end Outcome

namespace Attempt

variable {σ σ' ε ε' α α' β β' : Type}

/-- From matching states to matching states, with matching results or errors. -/
def Matches (states : σ → σ' → Prop) (errors : ε → ε' → Prop) (results : α → α' → Prop)
    (step : Attempt σ ε α) (step' : Attempt σ' ε' α') : Prop :=
  ∀ s s', states s s' →
    Outcome errors results (step s).1 (step' s').1 ∧ states (step s).2 (step' s').2

namespace Matches

variable {states : σ → σ' → Prop} {errors : ε → ε' → Prop} {results : α → α' → Prop}
  {outcomes : β → β' → Prop} {step : Attempt σ ε α} {step' : Attempt σ' ε' α'}

/-- From matching states both computations end in one of two ways. -/
theorem run (first : Matches states errors results step step') {s : σ} {s' : σ'}
    (now : states s s') :
    (∃ a a' t t', step s = (.ok a, t) ∧ step' s' = (.ok a', t') ∧ results a a' ∧ states t t') ∨
      ∃ e e' t t', step s = (.error e, t) ∧ step' s' = (.error e', t') ∧ errors e e' ∧
        states t t' := by
  obtain ⟨outcome, later⟩ := first s s' now
  rcases outcome.ends with ⟨a, a', ended, ended', same⟩ | ⟨e, e', ended, ended', same⟩
  · exact .inl ⟨a, a', _, _, Prod.ext ended rfl, Prod.ext ended' rfl, same, later⟩
  · exact .inr ⟨e, e', _, _, Prod.ext ended rfl, Prod.ext ended' rfl, same, later⟩

theorem pure {a : α} {a' : α'} (same : results a a') :
    Matches states errors results (Pure.pure a) (Pure.pure a') :=
  fun _ _ now => ⟨.ok same, now⟩

theorem fail {e : ε} {e' : ε'} (same : errors e e') :
    Matches states errors results (Attempt.fail e) (Attempt.fail e') :=
  fun _ _ now => ⟨.error same, now⟩

theorem ofExcept {x : Except ε α} {x' : Except ε' α'} (same : Outcome errors results x x') :
    Matches states errors results (Attempt.ofExcept x) (Attempt.ofExcept x') :=
  fun _ _ now => ⟨same, now⟩

theorem bind {next : α → Attempt σ ε β} {next' : α' → Attempt σ' ε' β'}
    (first : Matches states errors results step step')
    (second : ∀ a a', results a a' → Matches states errors outcomes (next a) (next' a')) :
    Matches states errors outcomes (step >>= next) (step' >>= next') := by
  intro s s' now
  rw [bind_run, bind_run]
  rcases first.run now with
    ⟨a, a', t, t', ran, ran', same, later⟩ | ⟨e, e', t, t', ran, ran', same, later⟩
  · rw [ran, ran']
    exact second a a' same t t' later
  · rw [ran, ran']
    exact ⟨.error same, later⟩

end Matches

end Attempt

end ScriptCore
