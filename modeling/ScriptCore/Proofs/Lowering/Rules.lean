import ScriptCore.Lowering.Unit

/-!
# When resolution and typing succeed

For each function that lowering consults, the condition under which it succeeds and the result
that it then has. Later proofs cite these equivalences and do not open the functions.
-/
namespace ScriptCore

/-- A sequence of two checks succeeds when both do. -/
theorem except_bind_eq_ok {ε α β : Type} {x : Except ε α} {f : α → Except ε β} {b : β} :
    (x >>= f) = .ok b ↔ ∃ a, x = .ok a ∧ f a = .ok b := by
  cases x <;> simp [bind, Except.bind]

theorem except_pure_eq_ok {ε α : Type} {a b : α} :
    (pure a : Except ε α) = .ok b ↔ a = b := by
  simp [pure, Except.pure]

theorem except_mapError_eq_ok {ε ε' α : Type} {x : Except ε α} {f : ε → ε'} {a : α} :
    x.mapError f = .ok a ↔ x = .ok a := by
  cases x with
  | ok value =>
    change Except.ok value = Except.ok a ↔ Except.ok value = Except.ok a
    simp
  | error e =>
    change Except.error (f e) = Except.ok a ↔ Except.error e = Except.ok a
    simp

theorem except_ite_eq_ok {ε α : Type} {c : Prop} [Decidable c] {e : ε} {a b : α} :
    (if c then Except.ok a else .error e) = .ok b ↔ c ∧ a = b := by
  split <;> simp [*]

namespace Ty

/-- A type other than `Any` accepts itself alone. -/
theorem accepts_iff_eq {target source : Ty} (h : target ≠ any) :
    target.accepts source = true ↔ source = target := by
  rw [accepts_iff, or_iff_right h, eq_comm]

theorem accepts_boolean {type : Ty} : boolean.accepts type = true ↔ type = .boolean :=
  accepts_iff_eq (by decide)

theorem accepts_string {type : Ty} : string.accepts type = true ↔ type = .string :=
  accepts_iff_eq (by decide)

end Ty

namespace Typing

variable {line : Line} {node : Node}

theorem expectAccepts_eq_ok {expected found : Ty} {u : Unit} :
    expectAccepts expected found line = .ok u ↔ expected.accepts found = true := by
  simp [expectAccepts]

theorem expectNode_eq_ok {expected : Ty} {u : Unit} :
    expectNode expected node = .ok u ↔ expected.accepts node.type = true :=
  expectAccepts_eq_ok

theorem binaryType_eq_ok {op : BinaryOp} {left right type : Ty} :
    binaryType op left right line = .ok type ↔
      (op.isArithmetic = true ∧ left.isNumber = true ∧ right.isNumber = true ∧ .double = type) ∨
      (op = .add ∧ left = .string ∧ .string = type) ∨
      (op.isComparison = true ∧ left.isNumber = true ∧ right.isNumber = true ∧
        .boolean = type) ∨
      (op.isEquality = true ∧ (left.accepts right = true ∨ right.accepts left = true) ∧
        .boolean = type) := by
  cases hl : left.isNumber with
  | false =>
    cases op <;>
      simp [binaryType, BinaryOp.isArithmetic, BinaryOp.isComparison, BinaryOp.isEquality,
        except_ite_eq_ok, Ty.accepts_string, hl]
  | true =>
    have text : left ≠ .string := by
      rintro rfl
      exact absurd hl (by decide)
    cases op <;>
      simp [binaryType, BinaryOp.isArithmetic, BinaryOp.isComparison, BinaryOp.isEquality,
        except_ite_eq_ok, Ty.accepts_string, hl, text]

theorem binary_eq_ok {op : BinaryOp} {left right : Node} :
    binary line op left right = .ok node ↔
      ∃ type, binaryType op left.type right.type line = .ok type ∧
        .binary ⟨type, line⟩ op left right = node := by
  simp only [binary, except_bind_eq_ok, except_pure_eq_ok]

theorem logical_eq_ok {op : LogicalOp} {left right : Node} :
    logical line op left right = .ok node ↔
      left.type = .boolean ∧ right.type = .boolean ∧
        .logical ⟨.boolean, line⟩ op left right = node := by
  simp only [logical, except_bind_eq_ok, except_pure_eq_ok, expectNode_eq_ok, exists_const,
    Ty.accepts_boolean]

theorem not_eq_ok {right : Node} :
    unary line .not right = .ok node ↔
      right.type = .boolean ∧ .unary ⟨.boolean, line⟩ .not right = node := by
  simp only [unary, except_bind_eq_ok, except_pure_eq_ok, expectNode_eq_ok, exists_const,
    Ty.accepts_boolean]

theorem neg_eq_ok {right : Node} :
    unary line .neg right = .ok node ↔
      right.type.isNumber = true ∧ .unary ⟨right.type, line⟩ .neg right = node := by
  simp only [unary, except_ite_eq_ok]

theorem fieldType_eq_ok {receiver type : Ty} {name : String} :
    fieldType receiver name line = .ok type ↔
      ∃ owner, receiver = .cls owner ∧ Parameters.get? owner.fields name = some type := by
  cases receiver with
  | cls owner => cases h : Parameters.get? owner.fields name <;> simp [fieldType, Ty.asClass?, h]
  | fn owner => simp [fieldType, Ty.asClass?]

theorem assign_eq_ok {name : String} {expected : Ty} {value : Node} :
    assign line name expected value = .ok node ↔
      expected.accepts value.type = true ∧ .assign ⟨expected, line⟩ name value = node := by
  simp only [assign, except_bind_eq_ok, except_pure_eq_ok, expectNode_eq_ok, exists_const]

theorem setField_eq_ok {receiver value : Node} {name : String} {expected : Ty} :
    setField line receiver name expected value = .ok node ↔
      expected.accepts value.type = true ∧ .set ⟨.unit, line⟩ receiver name value = node := by
  simp only [setField, except_bind_eq_ok, except_pure_eq_ok, expectNode_eq_ok, exists_const]

theorem returns_eq_ok {expected : Option Ty} {value : Node} :
    returns line expected value = .ok node ↔
      (∀ type, expected = some type → type.accepts value.type = true) ∧
        .returns ⟨value.type, line⟩ value = node := by
  cases expected with
  | none => simp only [returns, except_bind_eq_ok, except_pure_eq_ok]; simp
  | some type =>
    simp only [returns, except_bind_eq_ok, except_pure_eq_ok, expectNode_eq_ok, exists_const,
      Option.some.injEq, forall_eq']

theorem branchType_eq_ok {whenTrue whenFalse : List Node} {type : Ty} :
    branchType whenTrue whenFalse line = .ok type ↔
      (∃ other, Node.valueType? whenTrue = some type ∧
        Node.valueType? whenFalse = some other ∧ type.accepts other = true) ∨
      ((Node.valueType? whenTrue = none ∨ Node.valueType? whenFalse = none) ∧ .unit = type) := by
  cases h₁ : Node.valueType? whenTrue with
  | none => simp [branchType, h₁]
  | some first =>
    cases h₂ : Node.valueType? whenFalse with
    | none => simp [branchType, h₁, h₂]
    | some other =>
      simp only [branchType, h₁, h₂, except_bind_eq_ok, except_pure_eq_ok, expectAccepts_eq_ok,
        exists_const]
      constructor
      · rintro ⟨accepted, rfl⟩
        exact .inl ⟨other, rfl, rfl, accepted⟩
      · rintro (⟨_, ⟨⟩, ⟨⟩, accepted⟩ | ⟨⟨⟨⟩⟩ | ⟨⟨⟩⟩, -⟩)
        exact ⟨accepted, rfl⟩

theorem branch_eq_ok {condition : Node} {whenTrue whenFalse : List Node} :
    branch line condition whenTrue whenFalse = .ok node ↔
      ∃ type, branchType whenTrue whenFalse line = .ok type ∧
        .branch ⟨type, line⟩ condition whenTrue whenFalse = node := by
  simp only [branch, except_bind_eq_ok, except_pure_eq_ok]

theorem checkArguments_eq_ok {parameters : List Ty} {arguments : List Node} {u : Unit} :
    checkArguments parameters arguments = .ok u ↔
      ∀ pair ∈ parameters.zip arguments, pair.1.accepts pair.2.type = true := by
  induction parameters generalizing arguments with
  | nil => simp [checkArguments]
  | cons parameter parameters ih =>
    cases arguments with
    | nil => simp [checkArguments]
    | cons argument arguments =>
      simp only [checkArguments, except_bind_eq_ok, expectNode_eq_ok, exists_const, ih,
        List.zip_cons_cons, List.forall_mem_cons]

theorem keyArguments_eq_ok {parameters : List String} {arguments : List Node}
    {keyed : List (String × Node)} :
    keyArguments line parameters arguments = .ok keyed ↔
      arguments.length = parameters.length ∧ parameters.zip arguments = keyed := by
  simp only [keyArguments]
  split
  · simp; omega
  · split
    · simp; omega
    · simp; omega

/-- A call keys as many arguments as there are parameters, each of an accepted type. -/
theorem call_eq_ok {callee : Callee} {arguments : List Node} :
    call line callee arguments = .ok node ↔
      arguments.length = callee.type.parameters.length ∧
      (∀ pair ∈ (Parameters.types callee.type.parameters).zip arguments,
        pair.1.accepts pair.2.type = true) ∧
      .call ⟨callee.type.result, line⟩ callee.node
        ((Parameters.names callee.type.parameters).zip arguments) = node := by
  simp only [call, except_bind_eq_ok, except_pure_eq_ok, checkArguments_eq_ok, keyArguments_eq_ok,
    exists_const, Parameters.names, List.length_map]
  constructor
  · rintro ⟨accepted, _, ⟨arity, rfl⟩, rfl⟩
    exact ⟨arity, accepted, rfl⟩
  · rintro ⟨arity, accepted, rfl⟩
    exact ⟨accepted, _, ⟨arity, rfl⟩, rfl⟩

end Typing

namespace Scope

variable {scope : Scope} {line : Line} {name : String}

theorem lookup_eq_ok {type : Ty} :
    scope.lookup name = .ok type ↔ scope.frames.findSome? (·.vars.get? name) = some type := by
  simp only [lookup]
  split <;> simp [*]

theorem lookupType_eq_ok {type : Ty} :
    scope.lookupType name = .ok type ↔ scope.frames.findSome? (·.types.get? name) = some type := by
  simp only [lookupType]
  split <;> simp [*]

theorem resolveType_eq_ok {type : Ty} :
    scope.resolveType line name = .ok type ↔
      scope.frames.findSome? (·.types.get? name) = some type := by
  simp only [resolveType, except_mapError_eq_ok, lookupType_eq_ok]

theorem resolveVariable_eq_ok {type : Ty} :
    scope.resolveVariable line name = .ok type ↔
      scope.frames.findSome? (·.vars.get? name) = some type := by
  simp only [resolveVariable, except_mapError_eq_ok, lookup_eq_ok]

/-- A bare name is a variable, or else the first overload of the name. -/
theorem resolveName_eq_ok {node : Node} :
    scope.resolveName line name = .ok node ↔
      (∃ type, scope.lookup name = .ok type ∧ .readVariable ⟨type, line⟩ name = node) ∨
      (∃ e overload rest, scope.lookup name = .error e ∧
        scope.overloads name = overload :: rest ∧
        .readFunction ⟨.fn overload.type, line⟩ overload.name = node) := by
  simp only [resolveName]
  cases hl : scope.lookup name with
  | ok type => simp
  | error e => cases ho : scope.overloads name <;> simp

end Scope

theorem Callee.ofNode_eq_ok {node : Node} {callee : Callee} :
    Callee.ofNode node = .ok callee ↔ ∃ type, node.type = .fn type ∧ ⟨node, type⟩ = callee := by
  simp only [Callee.ofNode]
  cases h : node.type <;> simp [Ty.asFunction?]

namespace Scope

variable {scope : Scope} {line : Line} {name : String}

/-- A called name is the first overload that fits, or else a variable of a function type. -/
theorem resolveCallee_eq_ok {arguments : List Ty} {callee : Callee} :
    scope.resolveCallee line name arguments = .ok callee ↔
      (∃ overload, Overload.firstMatch? (scope.overloads name) arguments none = some overload ∧
        .ofOverload line overload = callee) ∨
      (∃ type, scope.overloads name = [] ∧ scope.lookup name = .ok (.fn type) ∧
        ⟨.readVariable ⟨.fn type, line⟩ name, type⟩ = callee) := by
  simp only [resolveCallee]
  cases ho : scope.overloads name with
  | nil =>
    cases hl : scope.lookup name with
    | ok type => cases type <;> simp [Callee.ofNode_eq_ok, Node.type, Node.tag, Overload.firstMatch?]
    | error e => simp [Overload.firstMatch?]
  | cons overload rest =>
    cases hm : Overload.firstMatch? (overload :: rest) arguments none <;> simp [hm]

theorem resolveMethod_eq_ok {receiver : Ty} {arguments : List Ty} {callee : Callee} :
    scope.resolveMethod line receiver name arguments = .ok callee ↔
      ∃ overload, Overload.firstMatch? (scope.extensions receiver name) arguments
          (some receiver) = some overload ∧ .ofOverload line overload = callee := by
  simp only [resolveMethod]
  split <;> simp [*]

theorem resolveReceiver_eq_ok {given : Option String} {receiver : Option Ty} :
    scope.resolveReceiver line given = .ok receiver ↔
      (given = none ∧ none = receiver) ∨
      (∃ name type, given = some name ∧ scope.resolveType line name = .ok type ∧
        some type = receiver) := by
  cases given with
  | none => simp [resolveReceiver]
  | some name =>
    simp only [resolveReceiver, except_bind_eq_ok, except_pure_eq_ok]
    simp

theorem resolveFunctionType_eq_ok {receiver : Option Ty} {signature : Signature} {type : FnTy} :
    scope.resolveFunctionType line receiver signature = .ok type ↔
      ∃ parameters result,
        scope.resolveParameters line (receiverParameters receiver) signature.parameters =
          .ok parameters ∧
        scope.resolveResult line signature.result = .ok result ∧
        ⟨parameters, result, receiver⟩ = type := by
  simp only [resolveFunctionType, except_bind_eq_ok, except_pure_eq_ok]
  constructor
  · rintro ⟨parameters, resolved, result, found, made⟩
    exact ⟨parameters, result, resolved, found, made⟩
  · rintro ⟨parameters, result, resolved, found, made⟩
    exact ⟨parameters, resolved, result, found, made⟩

end Scope

namespace Lowering

theorem requireReturn_eq_ok {name : String} {line : Line} {result : Ty} {body : List Node}
    {u : Unit} :
    requireReturn name line result body = .ok u ↔
      result = .unit ∨ Node.anyContainsReturn body = true := by
  rw [requireReturn, except_ite_eq_ok]
  simp

/-- A completed body has the return that its result needs, and an extension without one ends
with the synthetic return. -/
theorem completeBody_eq_ok {name : String} {line : Line} {type : FnTy} {body completed : List Node} :
    completeBody name line type body = .ok completed ↔
      (type.result = .unit ∨ Node.anyContainsReturn body = true) ∧
      (if type.receiver.isSome && !Node.anyContainsReturn body then body ++ [syntheticReturn]
        else body) = completed := by
  simp only [completeBody, except_bind_eq_ok, except_pure_eq_ok, requireReturn_eq_ok, exists_const]

end Lowering

end ScriptCore
