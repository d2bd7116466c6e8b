import ScriptCore.Proofs.Attempt
import ScriptCore.Proofs.Lowering.Stack

/-!
# Blocks

A block has a frame of its own, so a unit in a block is lowered against another scope than the unit
alone: its variables hide those from before where they would replace them, and its functions stand
in another frame. As long as none of these functions has a name with overloads from before, both
scopes answer alike all along, at every depth, and the block has the body that the unit lowers to
(`block_lowers_like_its_body`).
-/
namespace ScriptCore.Lowering

/-- Two states that give the same id next, and whose scopes answer alike. -/
structure State.Alike (free : String → Prop) (s s' : State) : Prop where
  scope : s.scope.Alike free s'.scope
  nextId : s'.nextId = s.nextId

/-- From states that are alike the step comes to one result, or fails with one error, and to states
that are alike. It leaves all frames that it enters. -/
structure Agrees (free : String → Prop) {α : Type} (step : Lower α) : Prop where
  alike : Attempt.Matches (State.Alike free) Eq Eq step step
  leaves : Extends step

namespace Agrees

variable {free : String → Prop} {α β : Type}

theorem bind {step : Lower α} {next : α → Lower β} (first : Agrees free step)
    (second : ∀ a, Agrees free (next a)) : Agrees free (step >>= next) where
  alike := by
    refine first.alike.bind ?_
    rintro a _ rfl
    exact (second a).alike
  leaves := kept_extends.bind first.leaves fun a => (second a).leaves

/-- Both scopes have one answer, and so both steps go on in one way. -/
theorem ask {query : Scope → Except CompileError α} {next : α → Lower β}
    (observable : Scope.Observable query)
    (second : ∀ a, (∃ scope, query scope = .ok a) → Agrees free (next a)) :
    Agrees free (inScope query >>= next) where
  alike := by
    intro s s' now
    rw [Attempt.bind_run, Attempt.bind_run, inScope, inScope, observable now.scope]
    cases answer : query s.scope with
    | ok a => exact (second a ⟨s.scope, answer⟩).alike s s' now
    | error e => exact ⟨.error rfl, now⟩
  leaves := kept_extends.bind_inScope fun a asked => (second a asked).leaves

theorem freshId : Agrees free freshId where
  alike _ _ now := ⟨.ok now.nextId.symm, now.scope, congrArg (· + 1) now.nextId⟩
  leaves := kept_extends.freshId

theorem changeScope {change : Scope → Scope}
    (changed : ∀ {scope scope' : Scope}, scope.Alike free scope' →
      (change scope).Alike free (change scope'))
    (added : ∀ scope : Scope, scope.Extends (change scope)) : Agrees free (changeScope change) where
  alike _ _ now := ⟨.ok rfl, changed now.scope, now.nextId⟩
  leaves := Kept.changeScope added

/-- In a frame of its own a step may declare any name: the frame is left again for the scopes from
before. -/
theorem inFrame {step : Lower α} (inside : Agrees (fun _ => True) step) :
    Agrees free (inFrame step) where
  alike := by
    intro s s' now
    obtain ⟨ended, later⟩ := inside.alike { s with scope := s.scope.push }
      { s' with scope := s'.scope.push } ⟨now.scope.push, now.nextId⟩
    refine ⟨ended, ?_, later.nextId⟩
    rw [scope_inFrame inside.leaves, scope_inFrame inside.leaves]
    exact now.scope
  leaves := kept_extends.inFrame inside.leaves

end Agrees

/-- All of lowering agrees in states that are alike, as long as the declared names are free. -/
theorem compositional_agrees : Compositional Agrees where
  pure a := ⟨.pure rfl, kept_extends.pure a⟩
  ofExcept x := ⟨.ofExcept (Outcome.eq_iff.mpr rfl), kept_extends.ofExcept x⟩
  bind := Agrees.bind
  ask := Agrees.ask
  freshId := Agrees.freshId
  define name type :=
    Agrees.changeScope (fun alike => alike.define name type) fun _ => Scope.extends_define
  record isFree _ :=
    Agrees.changeScope (fun alike => alike.defineType isFree _) fun _ => Scope.extends_defineType
  function isFree _ := Agrees.changeScope (fun alike => alike.defineFunction isFree _)
    fun _ => Scope.extends_defineFunction
  extension isFree _ _ := Agrees.changeScope (fun alike => alike.defineExtension isFree _)
    fun _ => Scope.extends_defineExtension
  inFrame := Agrees.inFrame

/-- A block lowers to what its body lowers to in a new frame. -/
theorem lowerStmts_block (r : Option Ty) (line : Line) (body : List Stmt) (s : State) :
    (lowerStmts r [.block line body] s).1 =
      (lowerStmts r body { s with scope := s.scope.push }).1.map
        fun nodes => [.block ⟨.unit, line⟩ nodes] := by
  rw [lowerStmts, lowerStmts, lowerStmt]
  simp only [Attempt.bind_run, Attempt.pure_run, inFrame]
  cases (lowerStmts r body { s with scope := s.scope.push }).1 <;> rfl

/-- Put a unit in a block. If no function or record that the unit declares outside of bodies has a
name with visible overloads, then the block lowers exactly when the unit does: to a block of the
same nodes, with the same names, indices, types and lines, or else with the same error. -/
theorem block_lowers_like_its_body {s : State} (reachable : s.scope.Reachable) {unit : List Stmt}
    (unused : ∀ name ∈ unit.flatMap Stmt.declaredNames, s.scope.overloads name = [])
    (line : Line) :
    (lowerUnit [.block line unit] s).1 =
      (lowerUnit unit s).1.map fun nodes => [.block ⟨.unit, line⟩ nodes] := by
  have alike : State.Alike (fun name => s.scope.overloads name = []) s
      { s with scope := s.scope.push } := ⟨Scope.alike_push reachable, rfl⟩
  have same := Outcome.eq_iff.mp
    ((compositional_agrees.lowerStmts none unit unused).alike _ _ alike).1
  rw [lowerUnit, lowerUnit, lowerStmts_block, same]

/-- A scope with a variable `x` and a function `k` besides the builtins. -/
def withEarlier : State := ⟨(Scope.builtins.define "x" .string).defineFunction "k" Scope.action, 0⟩

/-- Bind `x` anew, declare two functions `f`, and call the second of them inside of a function that
declares another `k` in its body. -/
def rebinding : List Stmt :=
  [.bind ⟨1⟩ .immutable "x" none (.literal ⟨1⟩ (.scalar (.int 1))),
    .expr (.native ⟨2⟩ "f" ⟨[], none⟩),
    .expr (.native ⟨3⟩ "f" ⟨[("n", "Int")], some "Int"⟩),
    .record ⟨4⟩ "Pair" [("first", "Int"), ("second", "String")],
    .expr (.function ⟨5⟩ none "g" ⟨[], some "Int"⟩
      [.expr (.native ⟨6⟩ "k" ⟨[], some "Int"⟩),
        .returns ⟨7⟩ (.call ⟨7⟩ (.name ⟨7⟩ "f") [.name ⟨7⟩ "x"])])]

theorem block_lowers_like_its_body_rebinding :
    withEarlier.scope.Reachable ∧
      (∀ name ∈ rebinding.flatMap Stmt.declaredNames, withEarlier.scope.overloads name = []) ∧
      (lowerUnit rebinding withEarlier).1.isOk = true ∧
      (lowerUnit [.block ⟨8⟩ rebinding] withEarlier).1 =
        (lowerUnit rebinding withEarlier).1.map fun nodes => [.block ⟨.unit, ⟨8⟩⟩ nodes] := by
  have reachable : withEarlier.scope.Reachable := .defineFunction (.define .builtins _ _) _ _
  have unused : ∀ name ∈ rebinding.flatMap Stmt.declaredNames,
      withEarlier.scope.overloads name = [] := by decide +kernel
  exact ⟨reachable, unused, by decide +kernel, block_lowers_like_its_body reachable unused ⟨8⟩⟩

/-- Another `k` comes behind the earlier one in a unit, and ahead of it in a block. -/
example :
    let unit : List Stmt := [.expr (.native ⟨1⟩ "k" ⟨[], some "Int"⟩),
      .bind ⟨2⟩ .immutable "n" (some "Int") (.call ⟨2⟩ (.name ⟨2⟩ "k") [])]
    (lowerUnit unit withEarlier).1.isOk = false ∧
      (lowerUnit [.block ⟨3⟩ unit] withEarlier).1.isOk = true := by
  decide +kernel

end ScriptCore.Lowering
