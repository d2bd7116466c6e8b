import ScriptCore.Proofs.Lowering.Derivation
import ScriptCore.Proofs.Scope.Admitted
import ScriptCore.Session

/-!
# Lowering gives well typed nodes

In an admitted scope every derivation of lowering gives nodes that keep the typing rules at every
depth, and leads to an admitted scope again, as long as what the nodes declare is declared
(`Lowers.typed`). With no restriction on names this holds of every scope that lowering reaches
from the builtins.
-/
namespace ScriptCore.Lowering

section States

variable {declared : Declarations} {s : State} {name : String}

theorem admitted_enter (admitted : s.scope.Admitted declared) {parameters : Parameters}
    (known : ∀ parameter ∈ parameters, declared.vars parameter.1 parameter.2 ∧
      parameter.2.Within declared.classes) :
    (s.enter parameters).scope.Admitted declared :=
  Scope.Admitted.defineVariables known admitted.push

theorem admitted_enter_nil (admitted : s.scope.Admitted declared) :
    (s.enter []).scope.Admitted declared :=
  admitted_enter admitted nofun

theorem admitted_declare (admitted : s.scope.Admitted declared) {type : FnTy}
    (known : declared.functions (s.scope.nextOverload name type).name type)
    (within : Ty.Within declared.classes (.fn type)) :
    (s.declare name type).scope.Admitted declared := by
  simp only [State.declare]
  split
  · exact admitted.defineExtension ⟨known, within⟩
  · exact admitted.defineFunction ⟨known, within⟩

/-- Inside of a function. -/
theorem admitted_enter_parameters (admitted : s.scope.Admitted declared) {type : FnTy}
    (parameters : ∀ parameter ∈ type.parameters, declared.vars parameter.1 parameter.2)
    (within : Ty.Within declared.classes (.fn type)) :
    (s.enter type.parameters).scope.Admitted declared := by
  refine admitted_enter admitted ?_
  cases within with
  | fn _ types _ => exact fun parameter mem => ⟨parameters parameter mem, types parameter mem⟩

/-- Inside of a function that has just been declared. -/
theorem admitted_declare_enter (admitted : s.scope.Admitted declared) {type : FnTy}
    (known : declared.functions (s.scope.nextOverload name type).name type)
    (parameters : ∀ parameter ∈ type.parameters, declared.vars parameter.1 parameter.2)
    (within : Ty.Within declared.classes (.fn type)) :
    ((s.declare name type).enter type.parameters).scope.Admitted declared :=
  admitted_enter_parameters (admitted_declare admitted known within) parameters within

end States

end ScriptCore.Lowering

namespace ScriptCore

/-- A node of a declared type that keeps the typing rules. -/
def Node.Sound (declared : Declarations) (returned : Option Ty) (node : Node) : Prop :=
  Typed declared returned node ∧ node.type.Within declared.classes

namespace Typing

variable {declared : Declarations} {r : Option Ty} {line : Line} {node : Node}

section Parts

theorem parts_unary {op : UnaryOp} {right : Node} (typed : unary line op right = .ok node) :
    node.parts = [right] := by
  cases op with
  | neg =>
    obtain ⟨-, rfl⟩ := neg_eq_ok.mp typed
    rfl
  | not =>
    obtain ⟨-, rfl⟩ := not_eq_ok.mp typed
    rfl

theorem parts_binary {op : BinaryOp} {left right : Node}
    (typed : binary line op left right = .ok node) : node.parts = [left, right] := by
  obtain ⟨_, -, rfl⟩ := binary_eq_ok.mp typed
  rfl

theorem parts_logical {op : LogicalOp} {left right : Node}
    (typed : logical line op left right = .ok node) : node.parts = [left, right] := by
  obtain ⟨-, -, rfl⟩ := logical_eq_ok.mp typed
  rfl

theorem parts_branch {condition : Node} {whenTrue whenFalse : List Node}
    (typed : branch line condition whenTrue whenFalse = .ok node) :
    node.parts = condition :: (whenTrue ++ whenFalse) := by
  obtain ⟨_, -, rfl⟩ := branch_eq_ok.mp typed
  rfl

theorem parts_call {callee : Callee} {arguments : List Node}
    (typed : call line callee arguments = .ok node) :
    node.parts = callee.node :: arguments := by
  obtain ⟨arity, -, rfl⟩ := call_eq_ok.mp typed
  simp [Node.parts, List.map_snd_zip, Parameters.names, arity]

end Parts

section Rules

variable (builtins : ∀ type ∈ ClassTy.builtins, declared.classes type)

include builtins

theorem sound_binary {op : BinaryOp} {left right : Node} (first : left.Sound declared r)
    (second : right.Sound declared r) (typed : binary line op left right = .ok node) :
    node.Sound declared r := by
  obtain ⟨type, rule, rfl⟩ := binary_eq_ok.mp typed
  rcases binaryType_eq_ok.mp rule with ⟨kind, leftNumber, rightNumber, rfl⟩ |
    ⟨rfl, text, rfl⟩ | ⟨kind, leftNumber, rightNumber, rfl⟩ | ⟨kind, comparable, rfl⟩
  · exact ⟨.arithmetic first.1 second.1 kind leftNumber rightNumber,
      Ty.within_of_builtin builtins (by decide)⟩
  · exact ⟨.concatenation first.1 second.1 text, Ty.within_of_builtin builtins (by decide)⟩
  · exact ⟨.comparison first.1 second.1 kind leftNumber rightNumber,
      Ty.within_of_builtin builtins (by decide)⟩
  · exact ⟨.equality first.1 second.1 kind comparable, Ty.within_of_builtin builtins (by decide)⟩

theorem sound_logical {op : LogicalOp} {left right : Node} (first : left.Sound declared r)
    (second : right.Sound declared r) (typed : logical line op left right = .ok node) :
    node.Sound declared r := by
  obtain ⟨leftBoolean, rightBoolean, rfl⟩ := logical_eq_ok.mp typed
  exact ⟨.logical first.1 second.1 leftBoolean rightBoolean,
    Ty.within_of_builtin builtins (by decide)⟩

theorem sound_unary {op : UnaryOp} {right : Node} (operand : right.Sound declared r)
    (typed : unary line op right = .ok node) : node.Sound declared r := by
  cases op with
  | neg =>
    obtain ⟨number, rfl⟩ := neg_eq_ok.mp typed
    exact ⟨.negation operand.1 number, operand.2⟩
  | not =>
    obtain ⟨boolean, rfl⟩ := not_eq_ok.mp typed
    exact ⟨.complement operand.1 boolean, Ty.within_of_builtin builtins (by decide)⟩

theorem sound_branch {condition : Node} {whenTrue whenFalse : List Node}
    (test : condition.Sound declared r) (boolean : condition.type = .boolean)
    (trueSound : ∀ node ∈ whenTrue, node.Sound declared r)
    (falseSound : ∀ node ∈ whenFalse, node.Sound declared r)
    (typed : branch line condition whenTrue whenFalse = .ok node) : node.Sound declared r := by
  obtain ⟨type, rule, rfl⟩ := branch_eq_ok.mp typed
  have value : Node.IsBranchType type whenTrue whenFalse := by
    rcases branchType_eq_ok.mp rule with ⟨other, first, second, accepted⟩ | ⟨-, rfl⟩
    · exact .inr ⟨other, first, second, accepted⟩
    · exact .inl rfl
  have typeWithin : type.Within declared.classes := by
    rcases value with rfl | ⟨_, first, -, -⟩
    · exact Ty.within_of_builtin builtins (by decide)
    · obtain ⟨last, mem, rfl⟩ := Node.exists_of_valueType? first
      exact (trueSound last mem).2
  exact ⟨.branch test.1 boolean (fun node mem => (trueSound node mem).1)
    (fun node mem => (falseSound node mem).1) value, typeWithin⟩

end Rules

/-- Arguments that are accepted one by one are accepted under the names of the parameters. -/
theorem forall₂_of_zip {parameters : Parameters} {arguments : List Node}
    (arity : arguments.length = parameters.length)
    (accepted : ∀ pair ∈ (Parameters.types parameters).zip arguments,
      pair.1.accepts pair.2.type = true) :
    List.Forall₂ (fun parameter argument => parameter.2.accepts argument.2.type = true)
      parameters ((Parameters.names parameters).zip arguments) := by
  induction parameters generalizing arguments with
  | nil => exact .nil
  | cons parameter rest ih =>
    cases arguments with
    | nil => cases arity
    | cons argument others =>
      simp only [Parameters.types, List.map_cons, List.zip_cons_cons, List.forall_mem_cons]
        at accepted
      exact .cons accepted.1 (ih (Nat.succ.inj arity) accepted.2)

/-- A callee whose node is typed like a function, with a declared function type. -/
structure CalleeSound (declared : Declarations) (r : Option Ty) (callee : Callee) : Prop where
  typed : Typed declared r callee.node
  isFunction : callee.node.type = .fn callee.type
  within : Ty.Within declared.classes (.fn callee.type)

theorem sound_call {callee : Callee} {arguments : List Node}
    (calleeSound : CalleeSound declared r callee)
    (argumentsSound : ∀ argument ∈ arguments, argument.Sound declared r)
    (typed : call line callee arguments = .ok node) : node.Sound declared r := by
  obtain ⟨arity, accepted, rfl⟩ := call_eq_ok.mp typed
  cases calleeSound.within with
  | fn distinct _ result =>
    have keys : ((Parameters.names callee.type.parameters).zip arguments).map Prod.fst =
        Parameters.names callee.type.parameters :=
      List.map_fst_zip (by simp [Parameters.names, arity])
    refine ⟨.call calleeSound.typed calleeSound.isFunction ?_ keys (by rwa [keys]) ?_, result⟩
    · exact fun argument mem => (argumentsSound _ (List.of_mem_zip mem).2).1
    · exact forall₂_of_zip arity accepted

end Typing

namespace Lowering

variable {declared : Declarations} {r : Option Ty} {s s' : State} {piece : Piece}
  {nodes : List Node}

theorem bindingType_sound {scope : Scope} (admitted : scope.Admitted declared) {line : Line}
    {typeName : Option String} {value : Node} {type : Ty} (sound : value.Sound declared r)
    (typed : bindingType scope line typeName value = .ok type) :
    type.accepts value.type = true ∧ type.Within declared.classes := by
  cases typeName with
  | none =>
    obtain rfl : value.type = type := by simpa [bindingType] using typed
    exact ⟨Ty.accepts_refl _, sound.2⟩
  | some given =>
    obtain ⟨declaredType, resolved, rest⟩ := except_bind_eq_ok.mp typed
    obtain ⟨_, checked, same⟩ := except_bind_eq_ok.mp rest
    obtain rfl := except_pure_eq_ok.mp same
    exact ⟨Typing.expectNode_eq_ok.mp checked, admitted.of_resolveType resolved⟩

theorem sound_literal (builtins : ∀ type ∈ ClassTy.builtins, declared.classes type) {line : Line}
    {value : Literal} :
    Node.Sound declared r (.literal ⟨value.type, line⟩ value) := by
  refine ⟨.literal, ?_⟩
  rcases value with (_ | _ | _ | _) | _ <;> exact Ty.within_of_builtin builtins (by decide)

/-- A field of a declared class has a declared type. -/
theorem within_field {owner : ClassTy} {name : String} {type : Ty}
    (within : Ty.Within declared.classes (.cls owner))
    (found : Parameters.get? owner.fields name = some type) :
    declared.classes owner ∧ type.Within declared.classes := by
  cases within with
  | cls known fields =>
    obtain ⟨field, there, rfl⟩ := Option.map_eq_some_iff.mp found
    exact ⟨known, fields field (List.mem_of_find?_eq_some there)⟩

/-- What a scope resolves a bare name to. -/
theorem sound_resolveName {scope : Scope} (admitted : scope.Admitted declared) {line : Line}
    {name : String} {node : Node} (resolved : scope.resolveName line name = .ok node) :
    node.Sound declared r := by
  rcases Scope.resolveName_eq_ok.mp resolved with ⟨type, found, rfl⟩ |
    ⟨_, overload, rest, -, found, rfl⟩
  · obtain ⟨known, within⟩ := admitted.of_lookup found
    exact ⟨.readVariable known, within⟩
  · have known := admitted.of_overloads (found ▸ List.mem_cons_self : overload ∈ _)
    exact ⟨.readFunction known.1, known.2⟩

theorem sound_this {scope : Scope}
    (builtins : ∀ type ∈ ClassTy.builtins, declared.classes type)
    (admitted : scope.Admitted declared) {line : Line} :
    Node.Sound declared r (.this ⟨scope.receiverType, line⟩) := by
  simp only [Scope.receiverType]
  split
  · rename_i type found
    obtain ⟨known, within⟩ := admitted.of_lookup found
    exact ⟨.this (.inr known), within⟩
  · exact ⟨.this (.inl rfl), Ty.within_of_builtin builtins (by decide)⟩

theorem calleeSound_ofOverload {line : Line} {overload : Overload}
    (known : Scope.OverloadAdmitted declared overload) :
    Typing.CalleeSound declared r (.ofOverload line overload) :=
  ⟨.readFunction known.1, rfl, known.2⟩

theorem calleeSound_resolveCallee {scope : Scope} (admitted : scope.Admitted declared)
    {line : Line} {name : String} {arguments : List Ty} {callee : Callee}
    (resolved : scope.resolveCallee line name arguments = .ok callee) :
    Typing.CalleeSound declared r callee := by
  rcases Scope.resolveCallee_eq_ok.mp resolved with ⟨overload, found, rfl⟩ | ⟨type, -, found, rfl⟩
  · exact calleeSound_ofOverload (admitted.of_overloads (Overload.firstMatch?_mem found))
  · obtain ⟨known, within⟩ := admitted.of_lookup found
    exact ⟨.readVariable known, rfl, within⟩

theorem calleeSound_resolveMethod {scope : Scope} (admitted : scope.Admitted declared)
    {line : Line} {receiver : Ty} {name : String} {arguments : List Ty} {callee : Callee}
    (resolved : scope.resolveMethod line receiver name arguments = .ok callee) :
    Typing.CalleeSound declared r callee := by
  obtain ⟨overload, found, rfl⟩ := Scope.resolveMethod_eq_ok.mp resolved
  exact calleeSound_ofOverload (admitted.of_extensions (Overload.firstMatch?_mem found))

theorem calleeSound_ofNode {node : Node} (sound : node.Sound declared r) {callee : Callee}
    (resolved : Callee.ofNode node = .ok callee) : Typing.CalleeSound declared r callee := by
  obtain ⟨type, isFunction, rfl⟩ := Callee.ofNode_eq_ok.mp resolved
  exact ⟨sound.1, isFunction, isFunction ▸ sound.2⟩

theorem sound_syntheticReturn (builtins : ∀ type ∈ ClassTy.builtins, declared.classes type) :
    Node.Sound declared (some .unit) syntheticReturn := by
  have value := @Typed.literal declared (some .unit) .synthetic .unit
  refine ⟨.returns value ?_, Ty.within_of_builtin builtins (by decide)⟩
  rintro _ ⟨⟩
  exact Ty.accepts_refl .unit

/-- What is lowered of a function body is part of the complete one. -/
theorem admitsAll_of_completeBody {name : String} {line : Line} {type : FnTy}
    {body completed : List Node} (complete : completeBody name line type body = .ok completed)
    (admits : declared.AdmitsAll completed) : declared.AdmitsAll body := by
  obtain ⟨-, same⟩ := completeBody_eq_ok.mp complete
  split at same
  · subst same
    exact (Declarations.admitsAll_append.mp admits).1
  · exact same ▸ admits

/-- A function body that is complete has the nodes that were lowered, and perhaps a return. -/
theorem completeBody_sound {name : String} {line : Line} {type : FnTy}
    {body completed : List Node} (builtins : ∀ type ∈ ClassTy.builtins, declared.classes type)
    (complete : completeBody name line type body = .ok completed)
    (sound : ∀ node ∈ body, node.Sound declared (some type.result)) :
    (∀ node ∈ completed, Typed declared (some type.result) node) ∧
      (type.result = .unit ∨ Node.anyContainsReturn completed = true) := by
  obtain ⟨required, same⟩ := completeBody_eq_ok.mp complete
  split at same
  · rename_i synthetic
    subst same
    have unit : type.result = .unit := by
      rcases required with unit | present
      · exact unit
      · simp [present] at synthetic
    refine ⟨fun node mem => ?_, .inl unit⟩
    rcases List.mem_append.mp mem with lowered | last
    · exact (sound node lowered).1
    · rw [List.mem_singleton.mp last, unit]
      exact (sound_syntheticReturn builtins).1
  · subst same
    exact ⟨fun node mem => (sound node mem).1, required⟩

/-- Of the builtins the classes alone are needed here: what else there is is in the scope. -/
theorem Lowers.typed_of_classes (builtins : ∀ type ∈ ClassTy.builtins, declared.classes type)
    (h : Lowers r s piece nodes s')
    (admits : declared.AdmitsAll nodes) (admitted : s.scope.Admitted declared) :
    (∀ node ∈ nodes, node.Sound declared r) ∧ s'.scope.Admitted declared := by
  induction h with
  | literal => exact ⟨List.forall_mem_singleton.mpr (sound_literal builtins), admitted⟩
  | name resolved =>
    exact ⟨List.forall_mem_singleton.mpr (sound_resolveName admitted resolved), admitted⟩
  | this => exact ⟨List.forall_mem_singleton.mpr (sound_this builtins admitted), admitted⟩
  | group _ ih => exact ih admits admitted
  | assign resolved _ typed ih =>
    obtain ⟨accepted, rfl⟩ := Typing.assign_eq_ok.mp typed
    obtain ⟨known, within⟩ := admitted.of_resolveVariable resolved
    obtain ⟨sound, admitted⟩ := ih (Declarations.admitsAll_singleton.mp admits).2 admitted
    have value := List.forall_mem_singleton.mp sound
    exact ⟨List.forall_mem_singleton.mpr ⟨.assign value.1 known accepted, within⟩, admitted⟩
  | unary _ typed ih =>
    have below := (Declarations.admitsAll_singleton.mp admits).2
    rw [Typing.parts_unary typed] at below
    obtain ⟨sound, admitted⟩ := ih below admitted
    have right := List.forall_mem_singleton.mp sound
    exact ⟨List.forall_mem_singleton.mpr (Typing.sound_unary builtins right typed), admitted⟩
  | binary _ _ typed ihLeft ihRight =>
    have below := (Declarations.admitsAll_singleton.mp admits).2
    rw [Typing.parts_binary typed, Declarations.admitsAll_cons] at below
    obtain ⟨left, admitted⟩ := ihLeft below.1 admitted
    obtain ⟨right, admitted⟩ := ihRight below.2 admitted
    rw [List.forall_mem_singleton] at left right ⊢
    exact ⟨Typing.sound_binary builtins left right typed, admitted⟩
  | logical _ _ typed ihLeft ihRight =>
    have below := (Declarations.admitsAll_singleton.mp admits).2
    rw [Typing.parts_logical typed, Declarations.admitsAll_cons] at below
    obtain ⟨left, admitted⟩ := ihLeft below.1 admitted
    obtain ⟨right, admitted⟩ := ihRight below.2 admitted
    rw [List.forall_mem_singleton] at left right ⊢
    exact ⟨Typing.sound_logical builtins left right typed, admitted⟩
  | get _ field ih =>
    obtain ⟨sound, admitted⟩ := ih (Declarations.admitsAll_singleton.mp admits).2 admitted
    have receiver := List.forall_mem_singleton.mp sound
    obtain ⟨owner, isOwner, found⟩ := Typing.fieldType_eq_ok.mp field
    obtain ⟨known, within⟩ := within_field (isOwner ▸ receiver.2) found
    exact ⟨List.forall_mem_singleton.mpr ⟨.get receiver.1 isOwner known found, within⟩, admitted⟩
  | set _ field _ typed ihReceiver ihValue =>
    obtain ⟨accepted, rfl⟩ := Typing.setField_eq_ok.mp typed
    have below := (Declarations.admitsAll_singleton.mp admits).2
    rw [Node.parts, Declarations.admitsAll_cons] at below
    obtain ⟨receiver, admitted⟩ := ihReceiver below.1 admitted
    obtain ⟨value, admitted⟩ := ihValue below.2 admitted
    rw [List.forall_mem_singleton] at receiver value ⊢
    obtain ⟨owner, isOwner, found⟩ := Typing.fieldType_eq_ok.mp field
    obtain ⟨known, -⟩ := within_field (isOwner ▸ receiver.2) found
    exact ⟨⟨.set receiver.1 isOwner known found value.1 accepted,
      Ty.within_of_builtin builtins (by decide)⟩, admitted⟩
  | callMethod _ _ resolved typed ihReceiver ihArguments =>
    have below := (Declarations.admitsAll_singleton.mp admits).2
    rw [Typing.parts_call typed, Declarations.admitsAll_cons] at below
    obtain ⟨first, others⟩ := Declarations.admitsAll_cons.mp below.2
    obtain ⟨receiver, admitted⟩ := ihReceiver first admitted
    obtain ⟨arguments, admitted⟩ := ihArguments others admitted
    have all := List.forall_mem_cons.mpr ⟨List.forall_mem_singleton.mp receiver, arguments⟩
    exact ⟨List.forall_mem_singleton.mpr
      (Typing.sound_call (calleeSound_resolveMethod admitted resolved) all typed), admitted⟩
  | callName _ resolved typed ih =>
    have below := (Declarations.admitsAll_singleton.mp admits).2
    rw [Typing.parts_call typed, Declarations.admitsAll_cons] at below
    obtain ⟨arguments, admitted⟩ := ih below.2 admitted
    exact ⟨List.forall_mem_singleton.mpr
      (Typing.sound_call (calleeSound_resolveCallee admitted resolved) arguments typed), admitted⟩
  | callValue _ _ _ _ callable typed ihArguments ihCallee =>
    have below := (Declarations.admitsAll_singleton.mp admits).2
    rw [Typing.parts_call typed, Declarations.admitsAll_cons] at below
    obtain ⟨_, -, rfl⟩ := Callee.ofNode_eq_ok.mp callable
    obtain ⟨arguments, admitted⟩ := ihArguments below.2 admitted
    obtain ⟨calleeNode, admitted⟩ := ihCallee below.1 admitted
    have callee := calleeSound_ofNode (List.forall_mem_singleton.mp calleeNode) callable
    exact ⟨List.forall_mem_singleton.mpr (Typing.sound_call callee arguments typed), admitted⟩
  | branch _ boolean _ _ typed ihTest ihTrue ihFalse =>
    have below := (Declarations.admitsAll_singleton.mp admits).2
    rw [Typing.parts_branch typed, Declarations.admitsAll_cons, Declarations.admitsAll_append]
      at below
    obtain ⟨test, admitted⟩ := ihTest below.1 admitted
    obtain ⟨whenTrue, admitted⟩ := ihTrue below.2.1 (admitted_enter_nil admitted)
    obtain ⟨whenFalse, admitted⟩ := ihFalse below.2.2 (admitted_enter_nil admitted.pop)
    have isBoolean := Ty.accepts_boolean.mp (Typing.expectNode_eq_ok.mp boolean)
    rw [List.forall_mem_singleton] at test ⊢
    exact ⟨Typing.sound_branch builtins test isBoolean whenTrue whenFalse typed, admitted.pop⟩
  | function received resolved _ complete ih =>
    obtain ⟨⟨known, parameters⟩, below⟩ := Declarations.admitsAll_singleton.mp admits
    have within := admitted.of_resolveFunctionType builtins (admitted.of_resolveReceiver received)
      resolved
    -- the name is declared before the body is lowered, so the body may call the function
    have inside := admitted_declare_enter admitted known parameters within
    obtain ⟨lowered, admitted⟩ := ih (admitsAll_of_completeBody complete below) inside
    obtain ⟨body, isComplete⟩ := completeBody_sound builtins complete lowered
    exact ⟨List.forall_mem_singleton.mpr ⟨.function ⟨_, rfl⟩ known parameters body isComplete,
      within⟩,
      admitted.pop⟩
  | anonymous resolved _ complete ih =>
    obtain ⟨parameters, below⟩ := Declarations.admitsAll_singleton.mp admits
    have within := admitted.of_resolveFunctionType builtins (by simp) resolved
    obtain ⟨body, admitted⟩ := ih below (admitted_enter_parameters admitted parameters within)
    exact ⟨List.forall_mem_singleton.mpr ⟨.anonymous parameters (fun node mem => (body node mem).1)
      (requireReturn_eq_ok.mp complete), within⟩, admitted.pop⟩
  | native resolved =>
    obtain ⟨known, host⟩ := (Declarations.admitsAll_singleton.mp admits).1
    have within := admitted.of_resolveFunctionType builtins (by simp) resolved
    exact ⟨List.forall_mem_singleton.mpr ⟨.native ⟨_, rfl⟩ known host, within⟩,
      admitted_declare admitted known within⟩
  | noExprs => exact ⟨List.forall_mem_nil _, admitted⟩
  | moreExprs _ _ ihHead ihTail =>
    obtain ⟨first, others⟩ := Declarations.admitsAll_cons.mp admits
    obtain ⟨head, admitted⟩ := ihHead first admitted
    obtain ⟨tail, admitted⟩ := ihTail others admitted
    exact ⟨List.forall_mem_cons.mpr ⟨List.forall_mem_singleton.mp head, tail⟩, admitted⟩
  | expr _ ih => exact ih admits admitted
  | block _ ih =>
    obtain ⟨body, admitted⟩ := ih (Declarations.admitsAll_singleton.mp admits).2
      (admitted_enter_nil admitted)
    exact ⟨List.forall_mem_singleton.mpr ⟨.block fun node mem => (body node mem).1,
      Ty.within_of_builtin builtins (by decide)⟩, admitted.pop⟩
  | loop _ boolean _ ihTest ihBody =>
    have below := (Declarations.admitsAll_singleton.mp admits).2
    rw [Node.parts, Declarations.admitsAll_cons] at below
    obtain ⟨test, admitted⟩ := ihTest below.1 admitted
    obtain ⟨body, admitted⟩ := ihBody below.2 (admitted_enter_nil admitted)
    have isBoolean := Ty.accepts_boolean.mp (Typing.expectNode_eq_ok.mp boolean)
    rw [List.forall_mem_singleton] at test ⊢
    exact ⟨⟨.loop test.1 isBoolean fun node mem => (body node mem).1,
      Ty.within_of_builtin builtins (by decide)⟩, admitted.pop⟩
  | returns _ typed ih =>
    obtain ⟨accepted, rfl⟩ := Typing.returns_eq_ok.mp typed
    obtain ⟨sound, admitted⟩ := ih (Declarations.admitsAll_singleton.mp admits).2 admitted
    have value := List.forall_mem_singleton.mp sound
    exact ⟨List.forall_mem_singleton.mpr ⟨.returns value.1 accepted, value.2⟩, admitted⟩
  | bind _ typed ih =>
    obtain ⟨known, below⟩ := Declarations.admitsAll_singleton.mp admits
    obtain ⟨sound, admitted⟩ := ih below admitted
    have value := List.forall_mem_singleton.mp sound
    obtain ⟨accepted, within⟩ := bindingType_sound admitted value typed
    exact ⟨List.forall_mem_singleton.mpr ⟨.bind value.1 known accepted, within⟩,
      admitted.define known within⟩
  | useModule =>
    exact ⟨List.forall_mem_singleton.mpr ⟨.useModule, Ty.within_of_builtin builtins (by decide)⟩,
      admitted⟩
  | openModule =>
    exact ⟨List.forall_mem_singleton.mpr ⟨.openModule, Ty.within_of_builtin builtins (by decide)⟩,
      admitted⟩
  | record _ fieldTypes =>
    obtain ⟨known, constructor⟩ := (Declarations.admitsAll_singleton.mp admits).1
    obtain ⟨distinct, fields⟩ := admitted.of_resolveParameters (by simp [Parameters.names]) (by simp)
      fieldTypes
    have within : Ty.Within declared.classes (recordType _ _) := .cls known fields
    refine ⟨List.forall_mem_singleton.mpr ⟨.record known, within⟩, admitted.defineType within ?_⟩
    intro fn mem index
    obtain rfl := List.mem_singleton.mp mem
    exact ⟨constructor index, .fn distinct fields within⟩
  | noStmts => exact ⟨List.forall_mem_nil _, admitted⟩
  | moreStmts _ _ ihHead ihTail =>
    obtain ⟨first, others⟩ := Declarations.admitsAll_cons.mp admits
    obtain ⟨head, admitted⟩ := ihHead first admitted
    obtain ⟨tail, admitted⟩ := ihTail others admitted
    exact ⟨List.forall_mem_cons.mpr ⟨List.forall_mem_singleton.mp head, tail⟩, admitted⟩

theorem Lowers.typed (builtins : declared.HasBuiltins) (h : Lowers r s piece nodes s')
    (admits : declared.AdmitsAll nodes) (admitted : s.scope.Admitted declared) :
    (∀ node ∈ nodes, node.Sound declared r) ∧ s'.scope.Admitted declared :=
  h.typed_of_classes builtins.classes admits admitted

/-- The states of lowering that units lead to from the builtin scope. -/
inductive Reachable : State → Prop
  | fresh (nextId : Nat) : Reachable ⟨.builtins, nextId⟩
  | lowered {s s' : State} {unit : List Stmt} {nodes : List Node} (before : Reachable s)
      (lowers : lowerUnit unit s = (.ok nodes, s')) : Reachable s'

theorem Reachable.admitted {s : State} (reachable : Reachable s) :
    s.scope.Admitted .any := by
  induction reachable with
  | fresh nextId => exact Scope.admitted_builtins Declarations.hasBuiltins_any
  | lowered _ lowers ih =>
    exact ((lowers_of_lowerStmts lowers).typed Declarations.hasBuiltins_any
      (Declarations.admitsAll_any _) ih).2

/-- Whatever lowers in a reachable scope is well typed at every depth. -/
theorem wellTyped_of_lowerUnit {s s' : State} {unit : List Stmt} {nodes : List Node}
    (reachable : Reachable s) (lowers : lowerUnit unit s = (.ok nodes, s')) :
    ∀ node ∈ nodes, node.WellTyped none := by
  have sound := ((lowers_of_lowerStmts lowers).typed Declarations.hasBuiltins_any
    (Declarations.admitsAll_any _) reachable.admitted).1
  exact fun node mem => (sound node mem).1

/-- A function, and a call of it. -/
def doubling : List Stmt :=
  [.expr (.function ⟨1⟩ none "double" ⟨[("n", "Int")], some "Double"⟩
    [.returns ⟨2⟩ (.binary ⟨2⟩ .add (.name ⟨2⟩ "n") (.name ⟨2⟩ "n"))]),
   .expr (.call ⟨3⟩ (.name ⟨3⟩ "double") [.literal ⟨3⟩ (.scalar (.int 1))])]

/-- What the two lower to: the body has the arithmetic at its own type and the call has the argument
under the name of the parameter. -/
def doublingNodes : List Node :=
  let type : FnTy := ⟨[("n", .int)], .double, none⟩
  let n : Node := .readVariable ⟨.int, ⟨2⟩⟩ "n"
  [.function ⟨.fn type, ⟨1⟩⟩ ⟨0, "double-0", "double", type, ⟨1⟩⟩
    [.returns ⟨.double, ⟨2⟩⟩ (.binary ⟨.double, ⟨2⟩⟩ .add n n)],
   .call ⟨.double, ⟨3⟩⟩ (.readFunction ⟨.fn type, ⟨3⟩⟩ "double-0")
    [("n", .literal ⟨.int, ⟨3⟩⟩ (.scalar (.int 1)))]]

theorem wellTyped_doubling :
    (lowerUnit doubling ⟨.builtins, 0⟩).1 = .ok doublingNodes ∧
      ∀ node ∈ doublingNodes, node.WellTyped none := by
  obtain ⟨s', lowers⟩ : ∃ s', lowerUnit doubling ⟨.builtins, 0⟩ = (.ok doublingNodes, s') :=
    ⟨_, rfl⟩
  exact ⟨congrArg Prod.fst lowers, wellTyped_of_lowerUnit (.fresh 0) lowers⟩

end Lowering

end ScriptCore
