import ScriptCore.Proofs.Lowering.Sight
import ScriptCore.Proofs.Node.FirstOrder

/-!
# Lowering resolves names

In a scope that a context describes, first-order nodes are lowered to nodes that are resolved in the
context, and the context behind them describes the scope that lowering leads to
(`Lowers.resolved`).
-/
namespace ScriptCore

namespace Node

/-- What is known of the type of a first-order node at its position. -/
inductive Settled : Position → Node → Prop
  | value {position : Position} {node : Node} (builtin : node.type.IsBuiltin)
      (plain : node.declares = []) : Settled position node
  | bind {tag : Tag} {mutability : Mutability} {name : String} {value : Node} :
      Settled .statement (.bind tag mutability name value)
  | function {tag : Tag} {header : FunctionHeader} {body : List Node} :
      Settled .statement (.function tag header body)
  | native {tag : Tag} {header : NativeHeader} : Settled .statement (.native tag header)
  | readFunction {line : Line} {type : FnTy} {name : String} (result : type.result.IsBuiltin) :
      Settled .callee (.readFunction ⟨.fn type, line⟩ name)

/-- A body of statements that has a value has one of a builtin class. -/
theorem builtin_of_valueType? {body : List Node} {type : Ty}
    (settled : ∀ node ∈ body, Settled .statement node) (found : valueType? body = some type) :
    type.IsBuiltin := by
  rw [valueType?] at found
  split at found
  · cases found
  · rename_i last there
    have known := settled last (List.mem_of_getLast? there)
    cases known with
    | value builtin =>
      split at found
      all_goals first
        | cases found
          exact builtin
        | cases found
    | _ => cases found

end Node

namespace Lowering

open Context

/-- Where the nodes of a piece may stand: statements are no values. -/
def Piece.Allows : Piece → Node.Position → Prop
  | .expr _, _ | .exprs _, _ => True
  | .stmt _, position | .stmts _, position => position = .statement

section Outer

variable {r : Option Ty} {s s' : State} {piece : Piece} {nodes : List Node}

theorem outer_enter (s : State) (parameters : Parameters) :
    (s.enter parameters).scope.outer = s.scope.frames := by
  have keeps (scope : Scope) : (parameters.foldl
      (fun scope parameter => scope.define parameter.1 parameter.2) scope).outer = scope.outer := by
    induction parameters generalizing scope with
    | nil => rfl
    | cons parameter rest ih => exact ih _
  exact keeps s.scope.push

theorem outer_declare (s : State) (name : String) (type : FnTy) :
    (s.declare name type).scope.outer = s.scope.outer := by
  rw [State.declare]
  split <;> rfl

/-- A frame that has been entered can be left for the scope from before. -/
theorem scope_leave {parameters : Parameters}
    (same : s'.scope.outer = (s.enter parameters).scope.outer) : s'.leave.scope = s.scope := by
  rw [outer_enter] at same
  rw [State.leave, Scope.pop, same]
  rfl

theorem outer_defineType (scope : Scope) (name : String) (type : Ty) :
    (scope.defineType name type).outer = scope.outer := by
  have keeps (types : List FnTy) (scope : Scope) : (types.foldl
      (fun scope fn => scope.defineFunction name fn) scope).outer = scope.outer := by
    induction types generalizing scope with
    | nil => rfl
    | cons type rest ih => exact ih _
  exact keeps _ scope

/-- Lowering changes the innermost frame alone. -/
theorem Lowers.outer (h : Lowers r s piece nodes s') : s'.scope.outer = s.scope.outer := by
  induction h with
  | binary _ _ _ ihLeft ihRight | logical _ _ _ ihLeft ihRight => exact ihRight.trans ihLeft
  | set _ _ _ _ ihReceiver ihValue => exact ihValue.trans ihReceiver
  | callMethod _ _ _ _ ihReceiver ihArguments => exact ihArguments.trans ihReceiver
  | callValue _ _ _ _ _ _ ihArguments ihCallee => exact ihCallee.trans ihArguments
  | branch _ _ _ _ _ ihTest ihTrue ihFalse =>
    rw [scope_leave ihFalse, scope_leave ihTrue, ihTest]
  | function _ _ _ _ ih => rw [scope_leave ih, outer_declare]
  | anonymous _ _ _ ih => rw [scope_leave ih]
  | native _ => exact outer_declare _ _ _
  | moreExprs _ _ ihHead ihTail | moreStmts _ _ ihHead ihTail => exact ihTail.trans ihHead
  | block _ ih => rw [scope_leave ih]
  | loop _ _ _ ihTest ihBody => rw [scope_leave ihBody, ihTest]
  | bind _ _ ih => exact ih
  | record _ _ => exact outer_defineType _ _ _
  | group _ ih | assign _ _ _ ih | unary _ _ ih | get _ _ ih | callName _ _ _ ih | expr _ ih
  | returns _ _ ih => exact ih
  | _ => rfl

end Outer

/-- What lowering gives from a context that describes the scope. -/
structure Resolution (context : Context) (position : Node.Position) (nodes : List Node)
    (scope : Scope) : Prop where
  resolved : context.ResolvesBody nodes
  describes : (context.extend nodes).Describes scope
  settled : ∀ node ∈ nodes, Node.Settled position node

namespace Resolution

variable {context : Context} {position : Node.Position} {node : Node} {nodes rest : List Node}
  {scope scope' : Scope}

theorem value (resolved : context.Resolves node) (describes : context.Describes scope)
    (builtin : node.type.IsBuiltin) (plain : node.declares = []) :
    Resolution context position [node] scope where
  resolved := .cons resolved .nil
  describes := by
    rw [extend, plain]
    exact describes
  settled := List.forall_mem_singleton.mpr (.value builtin plain)

theorem operand (h : Resolution context .value [node] scope) :
    context.Resolves node ∧ context.Describes scope ∧ node.type.IsBuiltin := by
  obtain ⟨resolved, describes, settled⟩ := h
  cases List.forall_mem_singleton.mp settled with
  | value builtin plain =>
    rw [extend, plain] at describes
    cases resolved with
    | cons head tail => exact ⟨head, describes, builtin⟩

theorem operands (h : Resolution context .value nodes scope) :
    (∀ node ∈ nodes, context.Resolves node) ∧ context.Describes scope := by
  obtain ⟨resolved, describes, settled⟩ := h
  induction nodes with
  | nil => exact ⟨nofun, describes⟩
  | cons node rest ih =>
    obtain ⟨first, others⟩ := List.forall_mem_cons.mp settled
    cases first with
    | value builtin plain =>
      cases resolved with
      | cons head tail =>
        rw [plain] at tail
        rw [extend, plain] at describes
        obtain ⟨resolves, describes⟩ := ih tail describes others
        exact ⟨List.forall_mem_cons.mpr ⟨head, resolves⟩, describes⟩

theorem cons (first : Resolution context position [node] scope)
    (others : Resolution (node.declares ++ context) position rest scope') :
    Resolution context position (node :: rest) scope' where
  resolved := by
    cases first.resolved with
    | cons head _ => exact .cons head others.resolved
  describes := others.describes
  settled := List.forall_mem_cons.mpr
    ⟨List.forall_mem_singleton.mp first.settled, others.settled⟩

end Resolution

theorem resolvesBody_append {context : Context} {first second : List Node}
    (before : context.ResolvesBody first) (behind : (context.extend first).ResolvesBody second) :
    context.ResolvesBody (first ++ second) := by
  induction first generalizing context with
  | nil => exact behind
  | cons node rest ih =>
    cases before with
    | cons head tail => exact .cons head (ih tail behind)

/-- The return at the end of a body looks no name up. -/
theorem resolvesBody_completeBody {context : Context} {name : String} {line : Line} {type : FnTy}
    {body completed : List Node} (complete : completeBody name line type body = .ok completed)
    (resolved : context.ResolvesBody body) : context.ResolvesBody completed := by
  obtain ⟨-, same⟩ := completeBody_eq_ok.mp complete
  split at same
  · subst same
    exact resolvesBody_append resolved (.cons (.returns .literal) .nil)
  · exact same ▸ resolved

theorem bodyFirstOrder_of_completeBody {hosts inside : Bool} {name : String} {line : Line}
    {type : FnTy} {body completed : List Node}
    (complete : completeBody name line type body = .ok completed)
    (firstOrder : Node.bodyFirstOrder hosts inside completed = true) :
    ∀ node ∈ body, node.isFirstOrder hosts inside .statement = true := by
  have all := Node.bodyFirstOrder_iff.mp firstOrder
  obtain ⟨-, same⟩ := completeBody_eq_ok.mp complete
  split at same
  · subst same
    exact fun node mem => all node (List.mem_append_left _ mem)
  · exact same ▸ all

section Calls

variable {inside : Bool} {position : Node.Position} {line : Line} {callee : Callee}
  {arguments : List Node} {node : Node}

theorem calleeFirstOrder_of_call (typed : Typing.call line callee arguments = .ok node)
    (firstOrder : ∀ call ∈ [node], call.isFirstOrder false inside position = true) :
    callee.node.isFirstOrder false inside .callee = true := by
  obtain ⟨-, -, rfl⟩ := Typing.call_eq_ok.mp typed
  simp only [List.forall_mem_singleton, Node.isFirstOrder, Bool.and_eq_true] at firstOrder
  exact firstOrder.1

theorem argumentsFirstOrder_of_call (typed : Typing.call line callee arguments = .ok node)
    (firstOrder : ∀ call ∈ [node], call.isFirstOrder false inside position = true) :
    ∀ argument ∈ arguments, argument.isFirstOrder false inside .value = true := by
  obtain ⟨arity, -, rfl⟩ := Typing.call_eq_ok.mp typed
  simp only [List.forall_mem_singleton, Node.isFirstOrder, Bool.and_eq_true,
    Node.argumentsFirstOrder_iff] at firstOrder
  have values : ((Parameters.names callee.type.parameters).zip arguments).map Prod.snd =
      arguments := List.map_snd_zip (by simp [Parameters.names, arity])
  intro argument mem
  rw [← values] at mem
  obtain ⟨keyed, there, rfl⟩ := List.mem_map.mp mem
  exact firstOrder.2 keyed there

end Calls

section Rules

variable {context : Context} {position : Node.Position} {scope : Scope} {line : Line} {node : Node}

theorem builtin_literal {value : Literal} : value.type.IsBuiltin := by
  rcases value with (_ | _ | _ | _) | _ <;> exact ⟨_, by decide, rfl⟩

/-- The type of an operation is a builtin class. -/
theorem builtin_binaryType {op : BinaryOp} {left right type : Ty}
    (typed : Typing.binaryType op left right line = .ok type) : type.IsBuiltin := by
  rcases Typing.binaryType_eq_ok.mp typed with ⟨-, -, -, rfl⟩ | ⟨-, -, rfl⟩ | ⟨-, -, -, rfl⟩ |
    ⟨-, -, rfl⟩ <;> exact ⟨_, by decide, rfl⟩

/-- A called overload is in sight, and the arguments have the names of its parameters. -/
theorem resolution_call {overload : Overload} {arguments : List Node} {calleeLine : Line}
    (known : context.declarations.functions overload.name overload.type)
    (resolved : ∀ argument ∈ arguments, context.Resolves argument)
    (describes : context.Describes scope)
    (typed : Typing.call line (.ofOverload calleeLine overload) arguments = .ok node) :
    Resolution context position [node] scope := by
  obtain ⟨arity, -, rfl⟩ := Typing.call_eq_ok.mp typed
  obtain ⟨result, callable, mem, same⟩ := known
  refine .value (.call mem ?_ ?_) describes result rfl
  · rw [same]
    exact List.map_fst_zip (by simp [Parameters.names, Callee.ofOverload, arity])
  · exact fun argument there => resolved _ (List.of_mem_zip there).2

/-- No variable in sight is a function. -/
theorem not_isBuiltin_fn {type : FnTy} : ¬ Ty.IsBuiltin (.fn type) := by
  rintro ⟨made, -, same⟩
  cases same

/-- A bare name is a variable, or else a function that is called. -/
theorem resolution_name {inside : Bool} {name : String} (describes : context.Describes scope)
    (resolved : scope.resolveName line name = .ok node)
    (firstOrder : node.isFirstOrder false inside position = true) :
    Resolution context position [node] scope := by
  rcases Scope.resolveName_eq_ok.mp resolved with ⟨type, found, rfl⟩ |
    ⟨_, overload, rest, -, found, rfl⟩
  · obtain ⟨⟨bound, builtin⟩, -⟩ := describes.admitted.of_lookup found
    exact .value (.readVariable bound) describes builtin rfl
  · have mem : overload ∈ scope.overloads name := found ▸ List.mem_cons_self
    obtain ⟨⟨result, callable, known, same⟩, -⟩ := describes.admitted.of_overloads mem
    obtain rfl : position = .callee := by simpa [Node.isFirstOrder] using firstOrder
    exact ⟨.cons (.readFunction known (congrArg Ty.fn same.symm)) .nil, describes,
      List.forall_mem_singleton.mpr (.readFunction result)⟩

theorem resolution_this {inside : Bool} (describes : context.Describes scope)
    (this : inside = true → .var "this" ∈ context)
    (firstOrder : Node.isFirstOrder false inside position
      (.this ⟨scope.receiverType, line⟩) = true) :
    Resolution context position [.this ⟨scope.receiverType, line⟩] scope := by
  have builtin : scope.receiverType.IsBuiltin := by
    rw [Scope.receiverType]
    split
    · rename_i type found
      exact (describes.admitted.of_lookup found).1.2
    · exact ⟨.any, by decide, rfl⟩
  exact .value (.this (this firstOrder)) describes builtin rfl

theorem builtin_bindingType (describes : context.Describes scope) {typeName : Option String}
    {value : Node} {type : Ty} (builtin : value.type.IsBuiltin)
    (typed : bindingType scope line typeName value = .ok type) : type.IsBuiltin := by
  cases typeName with
  | none =>
    obtain rfl : value.type = type := by simpa [bindingType] using typed
    exact builtin
  | some given =>
    obtain ⟨declared, resolved, rest⟩ := except_bind_eq_ok.mp typed
    obtain ⟨_, -, same⟩ := except_bind_eq_ok.mp rest
    obtain rfl := except_pure_eq_ok.mp same
    exact builtin_of_resolveType describes resolved

/-- A builtin class has no field. -/
theorem fieldType_ne_ok {receiver type : Ty} {name : String} (builtin : receiver.IsBuiltin) :
    Typing.fieldType receiver name line ≠ .ok type := by
  intro found
  obtain ⟨owner, rfl, field⟩ := Typing.fieldType_eq_ok.mp found
  obtain ⟨made, known, same⟩ := builtin
  cases same
  simp [Parameters.get?, ClassTy.fields_of_builtin known] at field

end Rules

theorem Lowers.resolved {r : Option Ty} {s s' : State} {piece : Piece} {nodes : List Node}
    (h : Lowers r s piece nodes s') {context : Context} {inside : Bool} {position : Node.Position}
    (describes : context.Describes s.scope) (this : inside = true → .var "this" ∈ context)
    (allows : piece.Allows position)
    (firstOrder : ∀ node ∈ nodes, node.isFirstOrder false inside position = true) :
    Resolution context position nodes s'.scope := by
  induction h generalizing context inside position with
  | literal => exact .value .literal describes builtin_literal rfl
  | name resolved =>
    exact resolution_name describes resolved (firstOrder _ List.mem_cons_self)
  | this => exact resolution_this describes this (firstOrder _ List.mem_cons_self)
  | group _ ih => exact ih describes this trivial firstOrder
  | assign resolved _ typed ih =>
    obtain ⟨-, rfl⟩ := Typing.assign_eq_ok.mp typed
    obtain ⟨⟨bound, builtin⟩, -⟩ := describes.admitted.of_resolveVariable resolved
    have value := List.forall_mem_singleton.mp firstOrder
    simp only [Node.isFirstOrder] at value
    have operand := ih describes this trivial (List.forall_mem_singleton.mpr value)
    exact .value (.assign bound operand.operand.1) operand.operand.2.1 builtin rfl
  | @unary _ _ _ _ op _ _ _ _ typed ih =>
    have below : ∀ type line right, Node.isFirstOrder false inside position
        (.unary ⟨type, line⟩ op right) = right.isFirstOrder false inside .value := by
      intro type line right
      rw [Node.isFirstOrder]
    cases op with
    | neg =>
      obtain ⟨-, rfl⟩ := Typing.neg_eq_ok.mp typed
      rw [List.forall_mem_singleton, below] at firstOrder
      have operand := (ih describes this trivial (List.forall_mem_singleton.mpr firstOrder)).operand
      exact .value (.unary operand.1) operand.2.1 operand.2.2 rfl
    | not =>
      obtain ⟨-, rfl⟩ := Typing.not_eq_ok.mp typed
      rw [List.forall_mem_singleton, below] at firstOrder
      have operand := (ih describes this trivial (List.forall_mem_singleton.mpr firstOrder)).operand
      exact .value (.unary operand.1) operand.2.1 ⟨.boolean, by decide, rfl⟩ rfl
  | binary _ _ typed ihLeft ihRight =>
    obtain ⟨type, rule, rfl⟩ := Typing.binary_eq_ok.mp typed
    simp only [List.forall_mem_singleton, Node.isFirstOrder, Bool.and_eq_true] at firstOrder
    have left := (ihLeft describes this trivial
      (List.forall_mem_singleton.mpr firstOrder.1)).operand
    have right := (ihRight left.2.1 this trivial
      (List.forall_mem_singleton.mpr firstOrder.2)).operand
    exact .value (.binary left.1 right.1) right.2.1 (builtin_binaryType rule) rfl
  | logical _ _ typed ihLeft ihRight =>
    obtain ⟨-, -, rfl⟩ := Typing.logical_eq_ok.mp typed
    simp only [List.forall_mem_singleton, Node.isFirstOrder, Bool.and_eq_true] at firstOrder
    have left := (ihLeft describes this trivial
      (List.forall_mem_singleton.mpr firstOrder.1)).operand
    have right := (ihRight left.2.1 this trivial
      (List.forall_mem_singleton.mpr firstOrder.2)).operand
    exact .value (.logical left.1 right.1) right.2.1 ⟨.boolean, by decide, rfl⟩ rfl
  | get _ field ih =>
    simp only [List.forall_mem_singleton, Node.isFirstOrder] at firstOrder
    have receiver := (ih describes this trivial (List.forall_mem_singleton.mpr firstOrder)).operand
    exact absurd field (fieldType_ne_ok receiver.2.2)
  | set _ field _ typed ihReceiver _ =>
    obtain ⟨-, rfl⟩ := Typing.setField_eq_ok.mp typed
    simp only [List.forall_mem_singleton, Node.isFirstOrder, Bool.and_eq_true] at firstOrder
    have receiver := (ihReceiver describes this trivial
      (List.forall_mem_singleton.mpr firstOrder.1)).operand
    exact absurd field (fieldType_ne_ok receiver.2.2)
  | callMethod _ _ resolved typed ihReceiver ihArguments =>
    obtain ⟨overload, found, rfl⟩ := Scope.resolveMethod_eq_ok.mp resolved
    obtain ⟨receiverFirst, argumentsFirst⟩ :=
      List.forall_mem_cons.mp (argumentsFirstOrder_of_call typed firstOrder)
    have receiver := (ihReceiver describes this trivial
      (List.forall_mem_singleton.mpr receiverFirst)).operand
    have arguments := (ihArguments receiver.2.1 this trivial argumentsFirst).operands
    have known := arguments.2.admitted.of_extensions (Overload.firstMatch?_mem found)
    exact resolution_call known.1 (List.forall_mem_cons.mpr ⟨receiver.1, arguments.1⟩)
      arguments.2 typed
  | callName _ resolved typed ih =>
    have arguments := (ih describes this trivial (argumentsFirstOrder_of_call typed firstOrder)).operands
    rcases Scope.resolveCallee_eq_ok.mp resolved with ⟨overload, found, rfl⟩ | ⟨type, -, found, rfl⟩
    · have known := arguments.2.admitted.of_overloads (Overload.firstMatch?_mem found)
      exact resolution_call known.1 arguments.1 arguments.2 typed
    -- a variable that is called would have the type of a function
    · exact absurd (arguments.2.admitted.of_lookup found).1.2 not_isBuiltin_fn
  | callValue _ _ _ _ callable typed ihArguments ihCallee =>
    obtain ⟨type, isFunction, rfl⟩ := Callee.ofNode_eq_ok.mp callable
    have arguments := (ihArguments describes this trivial
      (argumentsFirstOrder_of_call typed firstOrder)).operands
    have callee := ihCallee arguments.2 this trivial
      (List.forall_mem_singleton.mpr (calleeFirstOrder_of_call typed firstOrder))
    obtain ⟨resolved, describes, settled⟩ := callee
    cases List.forall_mem_singleton.mp settled with
    | value builtin plain => exact absurd (isFunction ▸ builtin) not_isBuiltin_fn
    | @readFunction calleeLine calleeType name result =>
      cases resolved with
      | cons head _ =>
        cases head with
        | readFunction known same =>
          obtain rfl := Ty.fn.inj isFunction
          have declared : context.declarations.functions name calleeType :=
            ⟨result, _, known, (Ty.fn.inj same).symm⟩
          exact @resolution_call _ _ _ _ _ ⟨name, calleeType⟩ _ calleeLine declared arguments.1
            describes typed
  | branch _ _ whenTrue whenFalse typed ihTest ihTrue ihFalse =>
    obtain ⟨type, rule, rfl⟩ := Typing.branch_eq_ok.mp typed
    simp only [List.forall_mem_singleton, Node.isFirstOrder, Bool.and_eq_true,
      Node.bodyFirstOrder_iff] at firstOrder
    have test := (ihTest describes this trivial
      (List.forall_mem_singleton.mpr firstOrder.1.1)).operand
    have first := ihTrue (describes_enter test.2.1) this rfl firstOrder.1.2
    have between := scope_leave whenTrue.outer
    have second := ihFalse (describes_enter (between ▸ test.2.1)) this rfl firstOrder.2
    have builtin : type.IsBuiltin := by
      rcases Typing.branchType_eq_ok.mp rule with ⟨_, value, -, -⟩ | ⟨-, rfl⟩
      · exact Node.builtin_of_valueType? first.settled value
      · exact ⟨.unit, by decide, rfl⟩
    refine .value (.branch test.1 first.resolved second.resolved) ?_ builtin rfl
    rw [scope_leave whenFalse.outer, between]
    exact test.2.1
  | @function _ s _ line _ name _ _ _ type _ completed received resolved lowers complete ih =>
    simp only [List.forall_mem_singleton, Node.isFirstOrder, Bool.and_eq_true, decide_eq_true_eq]
      at firstOrder
    obtain ⟨rfl, below⟩ := firstOrder
    obtain ⟨builtin, result, within, extension⟩ :=
      builtin_of_resolveFunctionType describes received resolved
    -- the function is in sight of its own body, under a name that is fresh in the context
    have declared := @describes_declare context s describes name (.function
      ⟨s.nextId, (s.scope.nextOverload name type).name, name, type, line⟩ completed) within result
    have inner : (inside || type.receiver.isSome) = true → .var "this" ∈
        ofParameters type.parameters ++ .fn (s.scope.nextOverload name type).name (.function
          ⟨s.nextId, (s.scope.nextOverload name type).name, name, type, line⟩ completed) ::
            context := by
      intro around
      rcases (Bool.or_eq_true _ _).mp around with outside | here
      · exact List.mem_append_right _ (List.mem_cons_of_mem _ (this outside))
      · exact List.mem_append_left _ (List.mem_map_of_mem (extension here))
    have body := ih (describes_enter_parameters declared builtin) inner rfl
      (bodyFirstOrder_of_completeBody complete below)
    refine ⟨.cons (.function (describes.fresh type) ?_) .nil, ?_,
      List.forall_mem_singleton.mpr .function⟩
    · exact resolvesBody_completeBody complete body.resolved
    · rw [scope_leave lowers.outer]
      exact declared
  | anonymous _ _ _ _ => simp [Node.isFirstOrder] at firstOrder
  | @native _ s line name _ type resolved =>
    simp only [List.forall_mem_singleton, Node.isFirstOrder, Bool.and_eq_true, Bool.false_or,
      decide_eq_true_eq] at firstOrder
    obtain ⟨rfl, host⟩ := firstOrder
    have received : s.scope.resolveReceiver line none = .ok none := rfl
    obtain ⟨-, result, within, -⟩ := builtin_of_resolveFunctionType describes received resolved
    have declared := @describes_declare context s describes name (.native
      ⟨s.nextId, (s.scope.nextOverload name type).name, name, type, line⟩) within result
    exact ⟨.cons (.native (describes.fresh type) host) .nil, declared,
      List.forall_mem_singleton.mpr .native⟩
  | noExprs => exact ⟨.nil, describes, nofun⟩
  | moreExprs _ _ ihHead ihTail =>
    obtain ⟨first, others⟩ := List.forall_mem_cons.mp firstOrder
    have head := ihHead describes this trivial (List.forall_mem_singleton.mpr first)
    exact head.cons (ihTail head.describes (fun inside => List.mem_append_right _ (this inside))
      trivial others)
  | expr _ ih => exact ih describes this trivial firstOrder
  | block lowers ih =>
    simp only [List.forall_mem_singleton, Node.isFirstOrder, Node.bodyFirstOrder_iff] at firstOrder
    have body := ih (describes_enter describes) this rfl firstOrder
    refine .value (.block body.resolved) ?_ ⟨.unit, by decide, rfl⟩ rfl
    rw [scope_leave lowers.outer]
    exact describes
  | loop _ _ lowers ihTest ihBody =>
    simp only [List.forall_mem_singleton, Node.isFirstOrder, Bool.and_eq_true,
      Node.bodyFirstOrder_iff] at firstOrder
    have test := (ihTest describes this trivial
      (List.forall_mem_singleton.mpr firstOrder.1)).operand
    have body := ihBody (describes_enter test.2.1) this rfl firstOrder.2
    refine .value (.loop test.1 body.resolved) ?_ ⟨.unit, by decide, rfl⟩ rfl
    rw [scope_leave lowers.outer]
    exact test.2.1
  | returns _ typed ih =>
    obtain ⟨-, rfl⟩ := Typing.returns_eq_ok.mp typed
    simp only [List.forall_mem_singleton, Node.isFirstOrder] at firstOrder
    have result := (ih describes this trivial (List.forall_mem_singleton.mpr firstOrder)).operand
    exact .value (.returns result.1) result.2.1 result.2.2 rfl
  | bind _ typed ih =>
    obtain rfl : position = .statement := allows
    simp only [List.forall_mem_singleton, Node.isFirstOrder] at firstOrder
    have value := (ih describes this trivial (List.forall_mem_singleton.mpr firstOrder)).operand
    have builtin := builtin_bindingType value.2.1 value.2.2 typed
    exact ⟨.cons (.bind value.1) .nil, value.2.1.define builtin,
      List.forall_mem_singleton.mpr .bind⟩
  | useModule => simp [Node.isFirstOrder] at firstOrder
  | openModule => simp [Node.isFirstOrder] at firstOrder
  | record _ _ => simp [Node.isFirstOrder] at firstOrder
  | noStmts => exact ⟨.nil, describes, nofun⟩
  | moreStmts _ _ ihHead ihTail =>
    obtain ⟨first, others⟩ := List.forall_mem_cons.mp firstOrder
    have head := ihHead describes this allows (List.forall_mem_singleton.mpr first)
    exact head.cons (ihTail head.describes (fun inside => List.mem_append_right _ (this inside))
      allows others)

end Lowering

end ScriptCore
