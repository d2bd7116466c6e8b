import ScriptCore.Proofs.Lowering.Resolution
import ScriptCore.Proofs.Scope.Extends
import ScriptCore.Proofs.Scope.Indices

/-!
# Functions that a node declares

The functions that a node declares in the scope that it is evaluated in are those that stand in it
outside of bodies. Lowering puts an overload of each of them into the innermost frame, behind those
that the frame has had before, and in the order of the source.
-/
namespace ScriptCore

/-- The name that a function has in the source. -/
def Callable.sourceName : Callable → String
  | function header _ => header.plainName
  | native header => header.hostName
  | closure _ _ _ => "<anonymous>"
  | constructor header => header.made.render

namespace Node

mutual

/-- The functions that a node declares in the scope that it is evaluated in, in the order in which
they are lowered: the arguments of a call come before what is called. -/
def declaredFunctions : Node → List Callable
  | function _ header body => [.function header body]
  | native _ header => [.native header]
  | call _ callee arguments => argumentFunctions arguments ++ declaredFunctions callee
  | get _ receiver _ => declaredFunctions receiver
  | set _ left _ right | binary _ _ left right | logical _ _ left right =>
    declaredFunctions left ++ declaredFunctions right
  | unary _ _ value | bind _ _ _ value | assign _ _ value | returns _ value =>
    declaredFunctions value
  | loop _ condition _ | branch _ condition _ _ => declaredFunctions condition
  | literal _ _ | this _ | readVariable _ _ | readFunction _ _ | block _ _ | anonymous _ _ _
  | record _ _ | openModule _ _ | useModule _ _ => []

def argumentFunctions : List (String × Node) → List Callable
  | [] => []
  | (_, value) :: rest => declaredFunctions value ++ argumentFunctions rest

end

/-- The functions that the nodes of a body declare in one scope. -/
def declaredIn (nodes : List Node) : List Callable := nodes.flatMap declaredFunctions

theorem argumentFunctions_eq (arguments : List (String × Node)) :
    argumentFunctions arguments = declaredIn (arguments.map Prod.snd) := by
  induction arguments with
  | nil => rfl
  | cons argument rest ih => simp [argumentFunctions, declaredIn, ih]

theorem declaredFunctions_subset_of_mem {arguments : List (String × Node)}
    {argument : String × Node} (mem : argument ∈ arguments) :
    argument.2.declaredFunctions ⊆ argumentFunctions arguments := by
  rw [argumentFunctions_eq]
  exact fun callable there => List.mem_flatMap.mpr ⟨_, List.mem_map_of_mem mem, there⟩

theorem declaredIn_cons (node : Node) (rest : List Node) :
    declaredIn (node :: rest) = node.declaredFunctions ++ declaredIn rest :=
  List.flatMap_cons

theorem declaredIn_singleton (node : Node) : declaredIn [node] = node.declaredFunctions :=
  List.flatMap_singleton _ _

theorem declaredIn_append (first second : List Node) :
    declaredIn (first ++ second) = declaredIn first ++ declaredIn second :=
  List.flatMap_append

end Node

/-- The overloads of a name that these functions make. -/
def overloadsOf (name : String) (declared : List Callable) : List Overload :=
  (declared.filter (·.sourceName = name)).map fun callable => ⟨callable.name, callable.type⟩

theorem overloadsOf_append (name : String) (first second : List Callable) :
    overloadsOf name (first ++ second) = overloadsOf name first ++ overloadsOf name second := by
  simp [overloadsOf]

theorem overloadsOf_singleton (name : String) (callable : Callable) :
    overloadsOf name [callable] =
      if callable.sourceName = name then [⟨callable.name, callable.type⟩] else [] := by
  by_cases same : callable.sourceName = name <;> simp [overloadsOf, same]

namespace Lowering

open Node

/-- The innermost frame has these functions, behind all that it has had before. -/
def Adds (s : State) (declared : List Callable) (s' : State) : Prop :=
  ∀ name, (s.scope.current.overloads name ++ overloadsOf name declared).Sublist
    (s'.scope.current.overloads name)

section Adds

variable {s s₁ s' : State} {first second : List Callable} {name : String} {type : FnTy}

theorem Adds.of_extends (extended : s.scope.Extends s'.scope) : Adds s [] s' := by
  intro name
  have kept := (extended.current.overloads name).sublist
  simpa [overloadsOf] using kept

theorem Adds.refl : Adds s [] s := .of_extends (.refl _)

theorem Adds.trans (before : Adds s first s₁) (behind : Adds s₁ second s') :
    Adds s (first ++ second) s' := by
  intro name
  rw [overloadsOf_append, ← List.append_assoc]
  exact ((before name).append_right _).trans (behind name)

/-- What the innermost frame has now does not depend on the frames that have been left. -/
theorem Adds.leave {outside : State} {parameters : Parameters} (adds : Adds s first outside)
    (same : s₁.scope.outer = (outside.enter parameters).scope.outer) : Adds s first s₁.leave := by
  rw [Adds, scope_leave same]
  exact adds

/-- A declaration adds the overload of the function that is declared. -/
theorem adds_declare {callable : Callable} (named : callable.sourceName = name)
    (overload : (⟨callable.name, callable.type⟩ : Overload) = s.scope.nextOverload name type) :
    Adds s [callable] (s.declare name type) := by
  intro other
  have own : (s.declare name type).scope.current.overloads other =
      (s.scope.current.addOverload name (s.scope.nextOverload name type)).overloads other := by
    rw [State.declare]
    split <;> rfl
  rw [own, Scope.Frame.overloads_addOverload, overloadsOf_singleton, named, overload]
  by_cases same : name = other
  · subst same
    simp
  · simp [same]

end Adds

section Typing

variable {line : Line} {node : Node}

theorem declaredFunctions_unary {op : UnaryOp} {right : Node}
    (typed : Typing.unary line op right = .ok node) :
    node.declaredFunctions = right.declaredFunctions := by
  cases op with
  | neg =>
    obtain ⟨-, rfl⟩ := Typing.neg_eq_ok.mp typed
    rw [declaredFunctions]
  | not =>
    obtain ⟨-, rfl⟩ := Typing.not_eq_ok.mp typed
    rw [declaredFunctions]

theorem declaredFunctions_call {callee : Callee} {arguments : List Node}
    (typed : Typing.call line callee arguments = .ok node) :
    node.declaredFunctions = declaredIn arguments ++ callee.node.declaredFunctions := by
  obtain ⟨arity, -, rfl⟩ := Typing.call_eq_ok.mp typed
  have values : ((Parameters.names callee.type.parameters).zip arguments).map Prod.snd =
      arguments :=
    List.map_snd_zip (by simp [Parameters.names, arity])
  rw [declaredFunctions, argumentFunctions_eq, values]

end Typing

/-- A relation between the states around a piece and the functions that it declares in the frame
that it starts in. It holds of all that lowering may do to this frame. -/
structure Tracks (related : State → List Callable → State → Prop) : Prop where
  refl {s : State} : related s [] s
  trans {s s₁ s' : State} {first second : List Callable} (before : related s first s₁)
    (behind : related s₁ second s') : related s (first ++ second) s'
  leave {s outside s₁ : State} {declared : List Callable} {parameters : Parameters}
    (inside : related s declared outside)
    (same : s₁.scope.outer = (outside.enter parameters).scope.outer) : related s declared s₁.leave
  declare {s : State} {callable : Callable} {name : String} {type : FnTy}
    (named : callable.sourceName = name)
    (overload : (⟨callable.name, callable.type⟩ : Overload) = s.scope.nextOverload name type) :
    related s [callable] (s.declare name type)
  define {s : State} {name : String} {type : Ty} : related s [] (s.define name type)
  record {s : State} {name : String} {fields : Parameters} :
    related s [] { s with scope := s.scope.defineType name (recordType name fields) }
  fresh {s : State} : related s [] { s with nextId := s.nextId + 1 }

/-- The nodes of a piece declare the functions that lowering declares in the frame it starts in. -/
theorem Lowers.tracked {related : State → List Callable → State → Prop} (tracks : Tracks related)
    {r : Option Ty} {s s' : State} {piece : Piece} {nodes : List Node}
    (h : Lowers r s piece nodes s') : related s (declaredIn nodes) s' := by
  induction h with
  | literal | this | useModule | openModule | noExprs | noStmts => exact tracks.refl
  | name resolved =>
    rcases Scope.resolveName_eq_ok.mp resolved with ⟨_, -, rfl⟩ | ⟨_, _, _, -, -, rfl⟩
    all_goals exact tracks.refl
  | group _ ih | expr _ ih => exact ih
  | assign _ _ typed ih =>
    obtain ⟨-, rfl⟩ := Typing.assign_eq_ok.mp typed
    rw [declaredIn_singleton, declaredFunctions, ← declaredIn_singleton]
    exact ih
  | unary _ typed ih =>
    rw [declaredIn_singleton, declaredFunctions_unary typed, ← declaredIn_singleton]
    exact ih
  | binary _ _ typed ihLeft ihRight =>
    obtain ⟨_, -, rfl⟩ := Typing.binary_eq_ok.mp typed
    rw [declaredIn_singleton, declaredFunctions, ← declaredIn_singleton, ← declaredIn_singleton]
    exact tracks.trans ihLeft ihRight
  | logical _ _ typed ihLeft ihRight =>
    obtain ⟨-, -, rfl⟩ := Typing.logical_eq_ok.mp typed
    rw [declaredIn_singleton, declaredFunctions, ← declaredIn_singleton, ← declaredIn_singleton]
    exact tracks.trans ihLeft ihRight
  | get _ _ ih =>
    rw [declaredIn_singleton, declaredFunctions, ← declaredIn_singleton]
    exact ih
  | set _ _ _ typed ihReceiver ihValue =>
    obtain ⟨-, rfl⟩ := Typing.setField_eq_ok.mp typed
    rw [declaredIn_singleton, declaredFunctions, ← declaredIn_singleton, ← declaredIn_singleton]
    exact tracks.trans ihReceiver ihValue
  | callMethod _ _ resolved typed ihReceiver ihArguments =>
    obtain ⟨_, -, rfl⟩ := Scope.resolveMethod_eq_ok.mp resolved
    rw [declaredIn_singleton, declaredFunctions_call typed, declaredIn_cons,
      ← declaredIn_singleton]
    exact tracks.trans (tracks.trans ihReceiver ihArguments) tracks.refl
  | callName _ resolved typed ih =>
    rw [declaredIn_singleton, declaredFunctions_call typed]
    rcases Scope.resolveCallee_eq_ok.mp resolved with ⟨_, -, rfl⟩ | ⟨_, -, -, rfl⟩
    · exact tracks.trans ih tracks.refl
    · exact tracks.trans ih tracks.refl
  | callValue _ _ _ _ callable typed ihArguments ihCallee =>
    obtain ⟨_, -, rfl⟩ := Callee.ofNode_eq_ok.mp callable
    rw [declaredIn_singleton, declaredFunctions_call typed, ← declaredIn_singleton]
    exact tracks.trans ihArguments ihCallee
  | branch _ _ whenTrue whenFalse typed ihTest =>
    obtain ⟨_, -, rfl⟩ := Typing.branch_eq_ok.mp typed
    rw [declaredIn_singleton, declaredFunctions, ← declaredIn_singleton]
    exact tracks.leave (tracks.leave ihTest whenTrue.outer) whenFalse.outer
  | function _ _ lowered complete =>
    exact tracks.leave (tracks.declare rfl rfl) lowered.outer
  | anonymous _ lowered _ => exact tracks.leave tracks.fresh lowered.outer
  | native _ => exact tracks.declare rfl rfl
  | moreExprs _ _ ihHead ihTail | moreStmts _ _ ihHead ihTail =>
    rw [declaredIn_cons, ← declaredIn_singleton]
    exact tracks.trans ihHead ihTail
  | block lowered _ => exact tracks.leave tracks.refl lowered.outer
  | loop _ _ lowered ihTest =>
    rw [declaredIn_singleton, declaredFunctions, ← declaredIn_singleton]
    exact tracks.leave ihTest lowered.outer
  | returns _ typed ih =>
    obtain ⟨-, rfl⟩ := Typing.returns_eq_ok.mp typed
    rw [declaredIn_singleton, declaredFunctions, ← declaredIn_singleton]
    exact ih
  | bind _ _ ih =>
    rw [declaredIn_singleton, declaredFunctions, ← declaredIn_singleton,
      ← List.append_nil (declaredIn _)]
    exact tracks.trans ih tracks.define
  | record _ _ => exact tracks.record

/-- Lowering adds the functions that the nodes declare to the frame that it started in. -/
theorem Lowers.adds {r : Option Ty} {s s' : State} {piece : Piece} {nodes : List Node}
    (h : Lowers r s piece nodes s') : Adds s (declaredIn nodes) s' :=
  h.tracked
    ⟨.refl, .trans, .leave, adds_declare, .refl, .of_extends Scope.extends_defineType, .refl⟩

section Reachable

variable {s : State}

theorem State.reachable_enter (before : s.scope.Reachable) (parameters : Parameters) :
    (s.enter parameters).scope.Reachable := by
  have defined (scope : Scope) (reachable : scope.Reachable) :
      (parameters.foldl (fun scope parameter => scope.define parameter.1 parameter.2)
        scope).Reachable := by
    induction parameters generalizing scope with
    | nil => exact reachable
    | cons parameter rest ih => exact ih _ (reachable.define _ _)
  exact defined _ before.push

theorem State.reachable_declare (before : s.scope.Reachable) (name : String) (type : FnTy) :
    (s.declare name type).scope.Reachable := by
  rw [State.declare]
  split
  · exact before.defineExtension name type
  · exact before.defineFunction name type

/-- Lowering changes the scope by the operations on scopes alone. -/
theorem Lowers.reachable {r : Option Ty} {s s' : State} {piece : Piece} {nodes : List Node}
    (h : Lowers r s piece nodes s') (before : s.scope.Reachable) : s'.scope.Reachable := by
  induction h with
  | literal | name | this | useModule | openModule | noExprs | noStmts => exact before
  | group _ ih | assign _ _ _ ih | unary _ _ ih | get _ _ ih | expr _ ih | returns _ _ ih =>
    exact ih before
  | binary _ _ _ ihLeft ihRight | logical _ _ _ ihLeft ihRight | set _ _ _ _ ihLeft ihRight
  | callMethod _ _ _ _ ihLeft ihRight | callValue _ _ _ _ _ _ ihLeft ihRight
  | moreExprs _ _ ihLeft ihRight | moreStmts _ _ ihLeft ihRight =>
    exact ihRight (ihLeft before)
  | callName _ _ _ ih => exact ih before
  | branch _ _ _ _ _ ihTest ihTrue ihFalse =>
    have afterTrue := (ihTrue (State.reachable_enter (ihTest before) [])).pop
    exact (ihFalse (State.reachable_enter afterTrue [])).pop
  | function _ _ _ _ ih =>
    exact (ih (State.reachable_enter (State.reachable_declare before _ _) _)).pop
  | anonymous _ _ _ ih => exact (ih (State.reachable_enter before _)).pop
  | native => exact State.reachable_declare before _ _
  | block _ ih => exact (ih (State.reachable_enter before [])).pop
  | loop _ _ _ ihTest ihBody => exact (ihBody (State.reachable_enter (ihTest before) [])).pop
  | bind _ _ ih => exact (ih before).define _ _
  | record => exact before.defineType _ _

end Reachable

end Lowering

end ScriptCore
