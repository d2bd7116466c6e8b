import ScriptCore.Proofs.Lowering.Statements
import ScriptCore.Proofs.Lowering.Resolution

/-!
# Indexed names that are taken

A function takes the next index of its name. Where the scope has an overload of the name already, no
function that is lowered there takes the first one, at any depth: the frames around a function stay
while its body is lowered.
-/
namespace ScriptCore

namespace Node

/-- No function of the body, at any depth, has this indexed name. -/
def Spares (name : String) (body : List Node) : Prop :=
  ∀ node ∈ all body, ∀ own ∈ node.ownFunctions, own.1 ≠ name

variable {name : String} {node : Node} {body first second : List Node}

theorem spares_nil : Spares name [] := nofun

theorem Spares.append (before : Spares name first) (behind : Spares name second) :
    Spares name (first ++ second) :=
  forall_all_append.mpr ⟨before, behind⟩

theorem Spares.cons (head : Spares name [node]) (tail : Spares name body) :
    Spares name (node :: body) :=
  forall_all_cons.mpr ⟨head, tail⟩

/-- A node that is no function. -/
theorem Spares.above (below : Spares name body) (parts : node.parts = body)
    (own : node.ownFunctions = []) : Spares name [node] := by
  subst parts
  refine forall_all_singleton.mpr ⟨?_, below⟩
  rw [own]
  exact List.forall_mem_nil _

theorem spares_leaf (parts : node.parts = []) (own : node.ownFunctions = []) :
    Spares name [node] :=
  spares_nil.above parts own

end Node

namespace Lowering

open Node

variable {s s' : State} {plain : String}

/-- The scope has an overload of the name. -/
def Takes (plain : String) (s : State) : Prop := 0 < s.scope.nextIndex plain

theorem Takes.enter (taken : Takes plain s) (parameters : Parameters) :
    Takes plain (s.enter parameters) := by
  have defined (scope : Scope) : (parameters.foldl (fun scope parameter =>
      scope.define parameter.1 parameter.2) scope).nextIndex plain = scope.nextIndex plain := by
    induction parameters generalizing scope with
    | nil => rfl
    | cons parameter rest ih => exact ih _
  rw [Takes, State.enter, defined]
  exact taken

theorem Takes.leave (taken : Takes plain s) {parameters : Parameters}
    (same : s'.scope.outer = (s.enter parameters).scope.outer) : Takes plain s'.leave := by
  rw [Takes, scope_leave same]
  exact taken

theorem Takes.declare (taken : Takes plain s) (name : String) (type : FnTy) :
    Takes plain (s.declare name type) := by
  have counts : (s.declare name type).scope.nextIndex plain =
      (s.scope.defineFunction name type).nextIndex plain := by
    rw [State.declare]
    split <;> rfl
  rw [Takes, counts]
  exact Nat.lt_of_lt_of_le taken (Context.nextIndex_defineFunction s.scope name type plain).1

/-- A function does not take the first index of a name that has overloads. -/
theorem Takes.ne_first (taken : Takes plain s) (name : String) (type : FnTy) :
    (s.scope.nextOverload name type).name ≠ overloadName plain 0 := by
  intro same
  obtain ⟨rfl, first⟩ := overloadName_inj same
  exact Nat.ne_of_gt taken first

/-- A class brings further overloads of its name at most. -/
theorem Takes.record (taken : Takes plain s) (name : String) (type : Ty) :
    Takes plain { s with scope := s.scope.defineType name type } := by
  have defined (types : List FnTy) (scope : Scope) (some : 0 < scope.nextIndex plain) :
      0 < (types.foldl (fun scope fn => scope.defineFunction name fn) scope).nextIndex plain := by
    induction types generalizing scope with
    | nil => exact some
    | cons fn rest ih =>
      exact ih _ (Nat.lt_of_lt_of_le some (Context.nextIndex_defineFunction scope name fn plain).1)
  exact defined _ _ taken

section Typing

variable {line : Line} {node : Node}

theorem spares_unary {op : UnaryOp} {right : Node} (typed : Typing.unary line op right = .ok node)
    (below : Spares plain [right]) : Spares plain [node] := by
  refine below.above (Typing.parts_unary typed) ?_
  cases op with
  | neg =>
    obtain ⟨-, rfl⟩ := Typing.neg_eq_ok.mp typed
    rfl
  | not =>
    obtain ⟨-, rfl⟩ := Typing.not_eq_ok.mp typed
    rfl

theorem spares_call {callee : Callee} {arguments : List Node}
    (typed : Typing.call line callee arguments = .ok node) (called : Spares plain [callee.node])
    (given : Spares plain arguments) : Spares plain [node] := by
  refine (called.cons given).above (Typing.parts_call typed) ?_
  obtain ⟨arity, -, rfl⟩ := Typing.call_eq_ok.mp typed
  rfl

end Typing

theorem Lowers.spares {r : Option Ty} {piece : Piece} {nodes : List Node}
    (h : Lowers r s piece nodes s') (taken : Takes plain s) :
    Spares (overloadName plain 0) nodes ∧ Takes plain s' := by
  induction h with
  | literal | this | useModule | openModule => exact ⟨spares_leaf rfl rfl, taken⟩
  | noExprs | noStmts => exact ⟨spares_nil, taken⟩
  | name resolved =>
    refine ⟨?_, taken⟩
    rcases Scope.resolveName_eq_ok.mp resolved with ⟨_, -, rfl⟩ | ⟨_, _, _, -, -, rfl⟩
    all_goals exact spares_leaf rfl rfl
  | group _ ih | expr _ ih => exact ih taken
  | assign _ _ typed ih =>
    obtain ⟨-, rfl⟩ := Typing.assign_eq_ok.mp typed
    obtain ⟨value, taken⟩ := ih taken
    exact ⟨value.above rfl rfl, taken⟩
  | unary _ typed ih =>
    obtain ⟨right, taken⟩ := ih taken
    exact ⟨spares_unary typed right, taken⟩
  | binary _ _ typed ihLeft ihRight =>
    obtain ⟨_, -, rfl⟩ := Typing.binary_eq_ok.mp typed
    obtain ⟨left, taken⟩ := ihLeft taken
    obtain ⟨right, taken⟩ := ihRight taken
    exact ⟨(left.cons right).above rfl rfl, taken⟩
  | logical _ _ typed ihLeft ihRight =>
    obtain ⟨-, -, rfl⟩ := Typing.logical_eq_ok.mp typed
    obtain ⟨left, taken⟩ := ihLeft taken
    obtain ⟨right, taken⟩ := ihRight taken
    exact ⟨(left.cons right).above rfl rfl, taken⟩
  | get _ _ ih =>
    obtain ⟨receiver, taken⟩ := ih taken
    exact ⟨receiver.above rfl rfl, taken⟩
  | set _ _ _ typed ihReceiver ihValue =>
    obtain ⟨-, rfl⟩ := Typing.setField_eq_ok.mp typed
    obtain ⟨receiver, taken⟩ := ihReceiver taken
    obtain ⟨value, taken⟩ := ihValue taken
    exact ⟨(receiver.cons value).above rfl rfl, taken⟩
  | callMethod _ _ resolved typed ihReceiver ihArguments =>
    obtain ⟨_, -, rfl⟩ := Scope.resolveMethod_eq_ok.mp resolved
    obtain ⟨receiver, taken⟩ := ihReceiver taken
    obtain ⟨arguments, taken⟩ := ihArguments taken
    exact ⟨spares_call typed (spares_leaf rfl rfl) (receiver.cons arguments), taken⟩
  | callName _ resolved typed ih =>
    obtain ⟨arguments, taken⟩ := ih taken
    refine ⟨spares_call typed ?_ arguments, taken⟩
    rcases Scope.resolveCallee_eq_ok.mp resolved with ⟨_, -, rfl⟩ | ⟨_, -, -, rfl⟩
    all_goals exact spares_leaf rfl rfl
  | callValue _ _ _ _ callable typed ihArguments ihCallee =>
    obtain ⟨_, -, rfl⟩ := Callee.ofNode_eq_ok.mp callable
    obtain ⟨arguments, taken⟩ := ihArguments taken
    obtain ⟨callee, taken⟩ := ihCallee taken
    exact ⟨spares_call typed callee arguments, taken⟩
  | branch _ _ whenTrue whenFalse typed ihTest ihTrue ihFalse =>
    obtain ⟨_, -, rfl⟩ := Typing.branch_eq_ok.mp typed
    obtain ⟨test, taken⟩ := ihTest taken
    obtain ⟨first, -⟩ := ihTrue (taken.enter [])
    have between := taken.leave whenTrue.outer
    obtain ⟨second, -⟩ := ihFalse (between.enter [])
    exact ⟨(test.cons (first.append second)).above rfl rfl, between.leave whenFalse.outer⟩
  | @function _ _ _ _ _ name _ _ _ type _ _ _ _ lowered complete ih =>
    have declared := taken.declare name type
    obtain ⟨body, -⟩ := ih (declared.enter _)
    refine ⟨forall_all_singleton.mpr ⟨?_, ?_⟩, declared.leave lowered.outer⟩
    · exact List.forall_mem_singleton.mpr (taken.ne_first name type)
    · obtain ⟨-, rfl⟩ := completeBody_eq_ok.mp complete
      split
      · exact body.append ((spares_leaf rfl rfl).above rfl rfl)
      · exact body
  | anonymous _ lowered _ ih =>
    obtain ⟨body, -⟩ := ih (Takes.enter taken _)
    exact ⟨body.above rfl rfl, Takes.leave taken lowered.outer⟩
  | @native _ _ _ name _ type =>
    refine ⟨forall_all_singleton.mpr ⟨?_, spares_nil⟩, taken.declare name type⟩
    exact List.forall_mem_singleton.mpr (taken.ne_first name type)
  | moreExprs _ _ ihHead ihTail | moreStmts _ _ ihHead ihTail =>
    obtain ⟨head, taken⟩ := ihHead taken
    obtain ⟨tail, taken⟩ := ihTail taken
    exact ⟨head.cons tail, taken⟩
  | block lowered ih =>
    obtain ⟨body, -⟩ := ih (taken.enter [])
    exact ⟨body.above rfl rfl, taken.leave lowered.outer⟩
  | loop _ _ lowered ihTest ihBody =>
    obtain ⟨test, taken⟩ := ihTest taken
    obtain ⟨body, -⟩ := ihBody (taken.enter [])
    exact ⟨(test.cons body).above rfl rfl, taken.leave lowered.outer⟩
  | returns _ typed ih =>
    obtain ⟨-, rfl⟩ := Typing.returns_eq_ok.mp typed
    obtain ⟨value, taken⟩ := ih taken
    exact ⟨value.above rfl rfl, taken⟩
  | bind _ _ ih =>
    obtain ⟨value, taken⟩ := ih taken
    exact ⟨value.above rfl rfl, taken⟩
  | record => exact ⟨spares_leaf rfl rfl, taken.record _ _⟩

end Lowering

end ScriptCore
