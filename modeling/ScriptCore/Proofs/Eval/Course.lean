import ScriptCore.Proofs.Eval.Triple

/-!
# The course of a unit

The nodes of a unit are evaluated one after the other, those behind a module statement in the scope
of the module. `Reaches` says how far the evaluation of a unit comes, and in which scope and on
which machine it goes on from there. An invariant of single nodes holds at every point that is
reached, and a node that fails where it is reached makes the unit fail.
-/
namespace ScriptCore.Interpreter

open Eval

/-- The evaluation of nodes in a scope reaches the last ones of them, which are left to be evaluated
in a scope of their own and on another machine. -/
inductive Reaches (interpreter : Interpreter) (fuel : Nat) :
    Location → List Node → Machine → Location → List Node → Machine → Prop
  | here {target : Location} {nodes : List Node} {m : Machine} :
      Reaches interpreter fuel target nodes m target nodes m
  | module {target location target' : Location} {tag : Tag} {name : String}
      {nodes rest : List Node} {m m₁ m' : Machine}
      (opened : Eval.openModule name interpreter.global m = (.ok location, m₁))
      (onwards : Reaches interpreter fuel location nodes m₁ target' rest m') :
      Reaches interpreter fuel target (.openModule tag name :: nodes) m target' rest m'
  | node {target target' : Location} {node : Node} {nodes rest : List Node} {value : Value}
      {m m₁ m' : Machine} (other : ∀ tag name, node ≠ .openModule tag name)
      (evaluated : interpreter.evaluate fuel node target m = (.ok value, m₁))
      (onwards : Reaches interpreter fuel target nodes
        (m₁.holdingOnly (value.kept ++ m₁.store.held)) target' rest m') :
      Reaches interpreter fuel target (node :: nodes) m target' rest m'

variable {interpreter : Interpreter} {fuel : Nat} {target target' : Location}
  {nodes rest : List Node} {m m' : Machine}

/-- The nodes that are left are nodes of the unit. -/
theorem Reaches.subset (reaches : interpreter.Reaches fuel target nodes m target' rest m') :
    rest ⊆ nodes := by
  induction reaches with
  | here => exact List.Subset.refl _
  | module _ _ ih | node _ _ _ ih => exact List.Subset.trans ih (List.subset_cons_self _ _)

/-- What every node of a unit keeps holds wherever its evaluation comes. -/
theorem Reaches.holds (reaches : interpreter.Reaches fuel target nodes m target' rest m')
    (invariant : Location → List Node → Store → Prop) {stops : Stops}
    (step : ∀ target node rest, node :: rest <:+ nodes → (∀ tag name, node ≠ .openModule tag name) →
      Triple (invariant target (node :: rest)) (interpreter.evaluate fuel node target)
        (fun _ => invariant target rest) stops)
    (module : ∀ target tag name rest, .openModule tag name :: rest <:+ nodes →
      Triple (invariant target (.openModule tag name :: rest))
        (Eval.openModule name interpreter.global) (fun module => invariant module rest) stops)
    (now : invariant target nodes m.heap) : invariant target' rest m'.heap := by
  induction reaches with
  | here => exact now
  | module opened _ ih =>
    refine ih (fun target node rest there => step target node rest
        (there.trans (List.suffix_cons _ _))) (fun target tag name rest there =>
        module target tag name rest (there.trans (List.suffix_cons _ _))) ?_
    have after := (module _ _ _ _ (List.suffix_refl _)).of_ok now (congrArg Prod.fst opened)
    rwa [opened] at after
  | node other evaluated _ ih =>
    refine ih (fun target node rest there => step target node rest
        (there.trans (List.suffix_cons _ _))) (fun target tag name rest there =>
        module target tag name rest (there.trans (List.suffix_cons _ _))) ?_
    have after := (step _ _ _ (List.suffix_refl _) other).of_ok now (congrArg Prod.fst evaluated)
    rwa [evaluated] at after

section Failures

variable {α β : Type} {stop : Stop}

/-- Nothing is done behind a step that stops. -/
theorem fst_bind_of_error {step : Eval α} {next : α → Eval β} (stopped : (step m).1 = .error stop) :
    ((step >>= next) m).1 = .error stop := by
  cases ran : step m with
  | mk result m₁ =>
    obtain rfl : result = .error stop := by rw [← stopped, ran]
    rw [Attempt.bind_error ran]

theorem onLine_of_ok {line : Line} {step : Eval α} {a : α} {m₁ : Machine}
    (ran : step m = (.ok a, m₁)) : Eval.onLine line step m = (.ok a, m₁) := by
  rw [Eval.onLine, ran]

theorem uncaught_of_ok {line : Line} {step : Eval α} {a : α} {m₁ : Machine}
    (ran : step m = (.ok a, m₁)) : Eval.uncaught line step m = (.ok a, m₁) := by
  rw [Eval.uncaught, ran]

theorem fst_uncaught_of_failed {line : Line} {step : Eval α} {e : EvalError}
    (failed : (step m).1 = .error (.failed e)) :
    (Eval.uncaught line step m).1 = .error (.failed (e.atLine line)) := by
  cases ran : step m with
  | mk result m₁ =>
    obtain rfl : result = .error (.failed e) := by rw [← failed, ran]
    rw [Eval.uncaught, ran]

theorem evaluateFrom_cons {node : Node} (other : ∀ tag name, node ≠ .openModule tag name) :
    interpreter.evaluateFrom fuel target (node :: rest) = (do
      let value ← Eval.uncaught node.line (interpreter.evaluate fuel node target)
      let values ← Eval.holding value.kept (interpreter.evaluateFrom fuel target rest)
      return value :: values) := by
  rw [evaluateFrom]
  exact other

/-- A node that fails where it is reached makes the unit fail. -/
theorem Reaches.failed {node : Node} {e : EvalError}
    (reaches : interpreter.Reaches fuel target nodes m target' (node :: rest) m')
    (other : ∀ tag name, node ≠ .openModule tag name)
    (failed : (interpreter.evaluate fuel node target' m').1 = .error (.failed e)) :
    (interpreter.evaluateFrom fuel target nodes m).1 = .error (.failed (e.atLine node.line)) := by
  generalize left : node :: rest = remaining at reaches
  induction reaches with
  | here =>
    subst left
    rw [evaluateFrom_cons other]
    exact fst_bind_of_error (fst_uncaught_of_failed failed)
  | module opened _ ih =>
    rw [evaluateFrom, Attempt.bind_ok (onLine_of_ok opened)]
    exact fst_bind_of_error (ih failed left)
  | node different evaluated _ ih =>
    rw [evaluateFrom_cons different, Attempt.bind_ok (uncaught_of_ok evaluated)]
    refine fst_bind_of_error ?_
    rw [Eval.holding_run]
    exact ih failed left

end Failures

end ScriptCore.Interpreter
