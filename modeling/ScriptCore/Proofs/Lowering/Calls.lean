import Mathlib.Data.List.Forall2
import ScriptCore.Proofs.Lowering.Rules

/-!
# How calls resolve

A call is resolved by the types of its arguments. `CallsName` and `CallsMethod` say what comes of a
call of a bare name and of a call of a method: which function is called with which arguments, or
what the call fails with. The main result is that lowering gives just that (`call_is_first_match`).
-/
namespace ScriptCore

namespace Overload

/-- The receiver is this one, and there is one parameter for each argument, which accepts it. -/
structure Fits (overload : Overload) (arguments : List Ty) (receiver : Option Ty) : Prop where
  receiver : overload.type.receiver = receiver
  parameters : List.Forall₂ (fun parameter argument => Ty.accepts parameter argument = true)
    (Parameters.types overload.type.parameters) arguments

/-- The overload fits, and none of the candidates before it does. -/
def FirstFit (candidates : List Overload) (arguments : List Ty) (receiver : Option Ty)
    (overload : Overload) : Prop :=
  ∃ before after, candidates = before ++ overload :: after ∧ overload.Fits arguments receiver ∧
    ∀ other ∈ before, ¬ other.Fits arguments receiver

variable {candidates : List Overload} {arguments : List Ty} {receiver : Option Ty}
  {overload : Overload}

theorem acceptsCall_iff :
    overload.type.acceptsCall arguments receiver = true ↔ overload.Fits arguments receiver := by
  have same : overload.Fits arguments receiver ↔ overload.type.receiver = receiver ∧
      List.Forall₂ (fun parameter argument => Ty.accepts parameter argument = true)
        (Parameters.types overload.type.parameters) arguments :=
    ⟨fun fits => ⟨fits.receiver, fits.parameters⟩, fun both => ⟨both.1, both.2⟩⟩
  rw [same, List.forall₂_iff_zip]
  simp [FnTy.acceptsCall, pairwise_iff_forall₂, and_comm]

theorem firstMatch?_eq_some_iff :
    firstMatch? candidates arguments receiver = some overload ↔
      FirstFit candidates arguments receiver overload := by
  simp only [firstMatch?, List.find?_eq_some_iff_append, acceptsCall_iff, FirstFit]
  have fails (other : Overload) : (!other.type.acceptsCall arguments receiver) = true ↔
      ¬ other.Fits arguments receiver := by
    rw [← acceptsCall_iff]
    simp
  simp only [fails]
  constructor
  · rintro ⟨fits, before, after, split, none⟩
    exact ⟨before, after, split, fits, none⟩
  · rintro ⟨before, after, split, fits, none⟩
    exact ⟨fits, before, after, split, none⟩

theorem firstMatch?_eq_none_iff :
    firstMatch? candidates arguments receiver = none ↔
      ∀ other ∈ candidates, ¬ other.Fits arguments receiver := by
  simp only [firstMatch?, List.find?_eq_none, acceptsCall_iff]

/-- Some candidate fits if and only if there is a first one that does. -/
theorem exists_firstFit :
    (∃ overload, FirstFit candidates arguments receiver overload) ↔
      ∃ overload ∈ candidates, overload.Fits arguments receiver := by
  constructor
  · rintro ⟨overload, before, after, rfl, fits, -⟩
    exact ⟨overload, by simp, fits⟩
  · rintro ⟨overload, mem, fits⟩
    cases found : firstMatch? candidates arguments receiver with
    | none => exact absurd fits (firstMatch?_eq_none_iff.mp found overload mem)
    | some first => exact ⟨first, firstMatch?_eq_some_iff.mp found⟩

/-- Candidates with another receiver make no difference. -/
theorem firstMatch?_filter (receiver : Ty) :
    firstMatch? (candidates.filter (·.type.receiver = some receiver)) arguments (some receiver) =
      firstMatch? candidates arguments (some receiver) := by
  rw [firstMatch?, List.find?_filter, firstMatch?]
  congr
  funext overload
  simp [FnTy.acceptsCall]

end Overload

namespace Typing

variable {line : Line} {type : FnTy} {parameters : List Ty} {arguments : List Node}

/-- A call of a function with its arguments under the names of the parameters in their places. -/
def callNode (line : Line) (callee : Node) (type : FnTy) (arguments : List Node) : Node :=
  .call ⟨type.result, line⟩ callee ((Parameters.names type.parameters).zip arguments)

/-- Each parameter accepts the argument in its place, as far as both go. -/
def AcceptsSoFar (parameters : List Ty) (arguments : List Node) : Prop :=
  ∀ pair ∈ parameters.zip arguments, pair.1.accepts pair.2.type = true

/-- The first parameter that does not accept the argument in its place. -/
def RejectsFirst (parameters : List Ty) (arguments : List Node) (parameter : Ty)
    (argument : Node) : Prop :=
  ∃ place, parameters[place]? = some parameter ∧ arguments[place]? = some argument ∧
    parameter.accepts argument.type = false ∧
    AcceptsSoFar (parameters.take place) (arguments.take place)

theorem acceptsSoFar_cons {parameter : Ty} {argument : Node} :
    AcceptsSoFar (parameter :: parameters) (argument :: arguments) ↔
      parameter.accepts argument.type = true ∧ AcceptsSoFar parameters arguments := by
  simp [AcceptsSoFar]

theorem checkArguments_of_rejectsFirst {parameter : Ty} {argument : Node}
    (rejects : RejectsFirst parameters arguments parameter argument) :
    checkArguments parameters arguments =
      .error (.unexpected parameter.render argument.type argument.line) := by
  obtain ⟨place, hp, ha, rejected, accepted⟩ := rejects
  induction place generalizing parameters arguments with
  | zero =>
    cases parameters with
    | nil => cases hp
    | cons first others =>
      cases arguments with
      | nil => cases ha
      | cons own rest =>
        cases hp
        cases ha
        simp [checkArguments, expectNode, expectAccepts, rejected, bind, Except.bind]
  | succ place ih =>
    cases parameters with
    | nil => cases hp
    | cons first others =>
      cases arguments with
      | nil => cases ha
      | cons own rest =>
        obtain ⟨head, tail⟩ := acceptsSoFar_cons.mp accepted
        have later := ih hp ha tail
        simp [checkArguments, expectNode, expectAccepts, head, later, bind, Except.bind]

/-- Either each parameter accepts its argument, or one is the first that does not. -/
theorem acceptsSoFar_or_rejectsFirst (parameters : List Ty) (arguments : List Node) :
    AcceptsSoFar parameters arguments ∨
      ∃ parameter argument, RejectsFirst parameters arguments parameter argument := by
  induction parameters generalizing arguments with
  | nil => exact .inl (by simp [AcceptsSoFar])
  | cons parameter rest ih =>
    cases arguments with
    | nil => exact .inl (by simp [AcceptsSoFar])
    | cons argument others =>
      cases accepted : parameter.accepts argument.type with
      | false =>
        exact .inr ⟨parameter, argument, 0, rfl, rfl, accepted, by simp [AcceptsSoFar]⟩
      | true =>
        rcases ih others with all | ⟨first, own, place, hp, ha, rejected, before⟩
        · exact .inl (acceptsSoFar_cons.mpr ⟨accepted, all⟩)
        · refine .inr ⟨first, own, place + 1, hp, ha, rejected, ?_⟩
          exact acceptsSoFar_cons.mpr ⟨accepted, before⟩

theorem forall₂_accepts_iff :
    List.Forall₂ (fun parameter argument => Ty.accepts parameter argument = true)
        (Parameters.types type.parameters) (arguments.map Node.type) ↔
      arguments.length = type.parameters.length ∧
        AcceptsSoFar (Parameters.types type.parameters) arguments := by
  have length : (Parameters.types type.parameters).length = type.parameters.length := by
    simp [Parameters.types]
  rw [List.forall₂_map_right_iff, List.forall₂_iff_zip, length, AcceptsSoFar, Prod.forall]
  exact ⟨fun ⟨arity, accepts⟩ => ⟨arity.symm, fun _ _ mem => accepts mem⟩,
    fun ⟨arity, accepts⟩ => ⟨arity.symm, fun mem => accepts _ _ mem⟩⟩

theorem call_of_accepts (callee : Callee) (arity : arguments.length = callee.type.parameters.length)
    (accepts : AcceptsSoFar (Parameters.types callee.type.parameters) arguments) :
    call line callee arguments = .ok (callNode line callee.node callee.type arguments) :=
  call_eq_ok.mpr ⟨arity, accepts, rfl⟩

theorem call_of_rejectsFirst (callee : Callee) {parameter : Ty} {argument : Node}
    (rejects : RejectsFirst (Parameters.types callee.type.parameters) arguments parameter
      argument) :
    call line callee arguments =
      .error (.unexpected parameter.render argument.type argument.line) := by
  rw [call, checkArguments_of_rejectsFirst rejects]
  rfl

theorem call_of_arity (callee : Callee) (arity : arguments.length ≠ callee.type.parameters.length)
    (accepts : AcceptsSoFar (Parameters.types callee.type.parameters) arguments) :
    call line callee arguments = .error
      ⟨.unresolvedParameter (min arguments.length callee.type.parameters.length), line⟩ := by
  have checked : checkArguments (Parameters.types callee.type.parameters) arguments = .ok () :=
    checkArguments_eq_ok.mpr accepts
  have names : (Parameters.names callee.type.parameters).length =
      callee.type.parameters.length := by simp [Parameters.names]
  have keyed : keyArguments line (Parameters.names callee.type.parameters) arguments = .error
      ⟨.unresolvedParameter (min arguments.length callee.type.parameters.length), line⟩ := by
    rw [keyArguments, names]
    rcases Nat.lt_or_gt_of_ne arity with fewer | more
    · rw [if_pos fewer, Nat.min_eq_left (by omega)]
    · rw [if_neg (by omega), if_pos more, Nat.min_eq_right (by omega)]
  rw [call, checked]
  change (keyArguments line _ arguments >>= _) = _
  rw [keyed]
  rfl

end Typing

namespace Lowering

open Attempt

/-- What comes of a call of a bare name with these arguments in this scope. Inner frames come before
outer ones, and the overloads of a frame stand in the order of their declaration. -/
inductive CallsName (scope : Scope) (line calleeLine : Line) (name : String)
    (arguments : List Node) : Except CompileError Node → Prop
  | overload {overload : Overload}
      (first : Overload.FirstFit (scope.frames.flatMap (·.overloads name))
        (arguments.map Node.type) none overload) :
      CallsName scope line calleeLine name arguments
        (.ok (Typing.callNode line (.readFunction ⟨.fn overload.type, calleeLine⟩ overload.name)
          overload.type arguments))
  | unfit (visible : scope.frames.flatMap (·.overloads name) ≠ [])
      (unfit : ∀ overload ∈ scope.frames.flatMap (·.overloads name),
        ¬ overload.Fits (arguments.map Node.type) none) :
      CallsName scope line calleeLine name arguments (.error ⟨.unresolvedFunction name, calleeLine⟩)
  | unknown (hidden : scope.frames.flatMap (·.overloads name) = [])
      (unknown : scope.frames.findSome? (·.vars.get? name) = none) :
      CallsName scope line calleeLine name arguments (.error ⟨.unresolvedFunction name, calleeLine⟩)
  | noFunction {type : ClassTy} (hidden : scope.frames.flatMap (·.overloads name) = [])
      (bound : scope.frames.findSome? (·.vars.get? name) = some (.cls type)) :
      CallsName scope line calleeLine name arguments
        (.error (.unexpected "a function" (.cls type) calleeLine))
  | rejected {type : FnTy} {parameter : Ty} {argument : Node}
      (hidden : scope.frames.flatMap (·.overloads name) = [])
      (bound : scope.frames.findSome? (·.vars.get? name) = some (.fn type))
      (rejects : Typing.RejectsFirst (Parameters.types type.parameters) arguments parameter
        argument) :
      CallsName scope line calleeLine name arguments
        (.error (.unexpected parameter.render argument.type argument.line))
  | arity {type : FnTy} (hidden : scope.frames.flatMap (·.overloads name) = [])
      (bound : scope.frames.findSome? (·.vars.get? name) = some (.fn type))
      (accepts : Typing.AcceptsSoFar (Parameters.types type.parameters) arguments)
      (arity : arguments.length ≠ type.parameters.length) :
      CallsName scope line calleeLine name arguments
        (.error ⟨.unresolvedParameter (min arguments.length type.parameters.length), line⟩)
  | bound {type : FnTy} (hidden : scope.frames.flatMap (·.overloads name) = [])
      (bound : scope.frames.findSome? (·.vars.get? name) = some (.fn type))
      (accepts : Typing.AcceptsSoFar (Parameters.types type.parameters) arguments)
      (arity : arguments.length = type.parameters.length) :
      CallsName scope line calleeLine name arguments
        (.ok (Typing.callNode line (.readVariable ⟨.fn type, calleeLine⟩ name) type arguments))

/-- What comes of a call of a method. The receiver is the first of the arguments. -/
inductive CallsMethod (scope : Scope) (line : Line) (name : String) (receiver : Node)
    (arguments : List Node) : Except CompileError Node → Prop
  | extension {overload : Overload}
      (first : Overload.FirstFit (scope.frames.flatMap (·.extensionOverloads name))
        ((receiver :: arguments).map Node.type) (some receiver.type) overload) :
      CallsMethod scope line name receiver arguments
        (.ok (Typing.callNode line (.readFunction ⟨.fn overload.type, line⟩ overload.name)
          overload.type (receiver :: arguments)))
  | unfit (unfit : ∀ overload ∈ scope.frames.flatMap (·.extensionOverloads name),
        ¬ overload.Fits ((receiver :: arguments).map Node.type) (some receiver.type)) :
      CallsMethod scope line name receiver arguments (.error ⟨.unresolvedFunction name, line⟩)

variable {r : Option Ty} {s s₁ s' : State} {line calleeLine getLine : Line} {name : String}
  {receiver : Expr} {arguments : List Expr} {receiverNode : Node} {nodes : List Node}

/-- With its arguments lowered, a call of a bare name is resolved and typed. -/
theorem lowerExpr_callName (lowered : lowerExprs r arguments s = (.ok nodes, s')) :
    lowerExpr r (.call line (.name calleeLine name) arguments) s =
      (s'.scope.resolveCallee calleeLine name (nodes.map Node.type) >>=
        fun callee => Typing.call line callee nodes, s') := by
  rw [lowerExpr, bind_ok lowered, bind_run, inScope]
  cases s'.scope.resolveCallee calleeLine name (nodes.map Node.type) <;> rfl

theorem lowerExpr_callMethod (first : lowerExpr r receiver s = (.ok receiverNode, s₁))
    (second : lowerExprs r arguments s₁ = (.ok nodes, s')) :
    lowerExpr r (.call line (.get getLine receiver name) arguments) s =
      (s'.scope.resolveMethod line receiverNode.type name
          ((receiverNode :: nodes).map Node.type) >>=
        fun callee => Typing.call line callee (receiverNode :: nodes), s') := by
  rw [lowerExpr, bind_ok first, bind_ok second, bind_run, inScope]
  cases s'.scope.resolveMethod line receiverNode.type name
    ((receiverNode :: nodes).map Node.type) <;> rfl

/-- A callee that fits its arguments is called with them. -/
theorem call_of_fits {overload : Overload} {receiver : Option Ty}
    (fits : overload.Fits (nodes.map Node.type) receiver) :
    Typing.call line (.ofOverload calleeLine overload) nodes =
      .ok (Typing.callNode line (.readFunction ⟨.fn overload.type, calleeLine⟩ overload.name)
        overload.type nodes) := by
  obtain ⟨arity, accepts⟩ := Typing.forall₂_accepts_iff.mp fits.parameters
  exact Typing.call_of_accepts (.ofOverload calleeLine overload) arity accepts

section Name

variable {scope : Scope} {result : Except CompileError Node}

theorem resolveCallee_of_overloads (visible : scope.overloads name ≠ []) (types : List Ty) :
    scope.resolveCallee calleeLine name types =
      match Overload.firstMatch? (scope.overloads name) types none with
      | some overload => .ok (.ofOverload calleeLine overload)
      | none => .error ⟨.unresolvedFunction name, calleeLine⟩ := by
  rw [Scope.resolveCallee]
  cases overloads : scope.overloads name with
  | nil => exact absurd overloads visible
  | cons first rest => rfl

theorem resolveCallee_of_hidden (hidden : scope.overloads name = []) (types : List Ty) :
    scope.resolveCallee calleeLine name types =
      match scope.frames.findSome? (·.vars.get? name) with
      | some type => Callee.ofNode (.readVariable ⟨type, calleeLine⟩ name)
      | none => .error ⟨.unresolvedFunction name, calleeLine⟩ := by
  rw [Scope.resolveCallee, hidden, Scope.lookup]
  cases scope.frames.findSome? (·.vars.get? name) <;> rfl

/-- What the rules say comes of a call is what resolution and typing make of it. -/
theorem CallsName.eq (calls : CallsName scope line calleeLine name nodes result) :
    (scope.resolveCallee calleeLine name (nodes.map Node.type) >>=
      fun callee => Typing.call line callee nodes) = result := by
  cases calls with
  | @overload overload first =>
    have found := Overload.firstMatch?_eq_some_iff.mpr first
    obtain ⟨before, after, split, fits, -⟩ := first
    have visible : scope.overloads name ≠ [] := by
      rw [Scope.overloads, split]
      simp
    rw [resolveCallee_of_overloads visible, Scope.overloads, found]
    exact call_of_fits fits
  | unfit visible unfit =>
    rw [resolveCallee_of_overloads visible, Scope.overloads,
      Overload.firstMatch?_eq_none_iff.mpr unfit]
    rfl
  | unknown hidden unknown =>
    rw [resolveCallee_of_hidden hidden, unknown]
    rfl
  | noFunction hidden bound =>
    rw [resolveCallee_of_hidden hidden, bound]
    rfl
  | @rejected type _ _ hidden bound rejects =>
    rw [resolveCallee_of_hidden hidden, bound]
    exact Typing.call_of_rejectsFirst ⟨.readVariable ⟨.fn type, calleeLine⟩ name, type⟩ rejects
  | @arity type hidden bound accepts arity =>
    rw [resolveCallee_of_hidden hidden, bound]
    exact Typing.call_of_arity ⟨.readVariable ⟨.fn type, calleeLine⟩ name, type⟩ arity accepts
  | @bound type hidden bound accepts arity =>
    rw [resolveCallee_of_hidden hidden, bound]
    exact Typing.call_of_accepts ⟨.readVariable ⟨.fn type, calleeLine⟩ name, type⟩ arity accepts

/-- Something comes of every call. -/
theorem exists_callsName (scope : Scope) (line calleeLine : Line) (name : String)
    (nodes : List Node) : ∃ result, CallsName scope line calleeLine name nodes result := by
  by_cases hidden : scope.overloads name = []
  · cases bound : scope.frames.findSome? (·.vars.get? name) with
    | none => exact ⟨_, .unknown hidden bound⟩
    | some type =>
      cases type with
      | cls type => exact ⟨_, .noFunction hidden bound⟩
      | fn type =>
        rcases Typing.acceptsSoFar_or_rejectsFirst (Parameters.types type.parameters) nodes with
          accepts | ⟨parameter, argument, rejects⟩
        · by_cases arity : nodes.length = type.parameters.length
          · exact ⟨_, .bound hidden bound accepts arity⟩
          · exact ⟨_, .arity hidden bound accepts arity⟩
        · exact ⟨_, .rejected hidden bound rejects⟩
  · by_cases some : ∃ overload ∈ scope.overloads name, overload.Fits (nodes.map Node.type) none
    · obtain ⟨overload, first⟩ := Overload.exists_firstFit.mpr some
      exact ⟨_, .overload first⟩
    · exact ⟨_, .unfit hidden fun overload mem fits => some ⟨overload, mem, fits⟩⟩

theorem callsName_iff :
    CallsName scope line calleeLine name nodes result ↔
      (scope.resolveCallee calleeLine name (nodes.map Node.type) >>=
        fun callee => Typing.call line callee nodes) = result := by
  constructor
  · exact CallsName.eq
  · rintro rfl
    obtain ⟨result, calls⟩ := exists_callsName scope line calleeLine name nodes
    rwa [calls.eq]

/-- With overloads of its name to see, a call lowers if and only if one of them fits. -/
theorem CallsName.isOk_iff (calls : CallsName scope line calleeLine name nodes result)
    (visible : scope.overloads name ≠ []) :
    result.isOk = true ↔
      ∃ overload ∈ scope.overloads name, overload.Fits (nodes.map Node.type) none := by
  cases calls with
  | overload first =>
    have fits := Overload.exists_firstFit.mp ⟨_, first⟩
    exact ⟨fun _ => fits, fun _ => rfl⟩
  | unfit _ unfit =>
    refine ⟨nofun, ?_⟩
    rintro ⟨overload, mem, fits⟩
    exact absurd fits (unfit overload mem)
  | unknown hidden | noFunction hidden | rejected hidden | arity hidden | bound hidden =>
    exact absurd hidden visible

end Name

section Method

variable {scope : Scope} {result : Except CompileError Node}

theorem callsMethod_iff :
    CallsMethod scope line name receiverNode nodes result ↔
      (scope.resolveMethod line receiverNode.type name ((receiverNode :: nodes).map Node.type) >>=
        fun callee => Typing.call line callee (receiverNode :: nodes)) = result := by
  have resolved : scope.resolveMethod line receiverNode.type name
      ((receiverNode :: nodes).map Node.type) =
        match Overload.firstMatch? (scope.frames.flatMap (·.extensionOverloads name))
          ((receiverNode :: nodes).map Node.type) (some receiverNode.type) with
        | some overload => .ok (.ofOverload line overload)
        | none => .error ⟨.unresolvedFunction name, line⟩ := by
    rw [← Overload.firstMatch?_filter]
    rfl
  have sound {result : Except CompileError Node}
      (calls : CallsMethod scope line name receiverNode nodes result) :
      (scope.resolveMethod line receiverNode.type name ((receiverNode :: nodes).map Node.type) >>=
        fun callee => Typing.call line callee (receiverNode :: nodes)) = result := by
    rw [resolved]
    cases calls with
    | extension first =>
      rw [Overload.firstMatch?_eq_some_iff.mpr first]
      obtain ⟨before, after, -, fits, -⟩ := first
      exact call_of_fits fits
    | unfit unfit =>
      rw [Overload.firstMatch?_eq_none_iff.mpr unfit]
      rfl
  constructor
  · exact sound
  · rintro rfl
    by_cases some : ∃ overload ∈ scope.frames.flatMap (·.extensionOverloads name),
        overload.Fits ((receiverNode :: nodes).map Node.type) (some receiverNode.type)
    · obtain ⟨overload, first⟩ := Overload.exists_firstFit.mpr some
      have calls : CallsMethod scope line name receiverNode nodes _ := .extension first
      rwa [sound calls]
    · have calls : CallsMethod scope line name receiverNode nodes _ :=
        .unfit fun overload mem fits => some ⟨overload, mem, fits⟩
      rwa [sound calls]

/-- A call of a method lowers if and only if an extension of exactly the receiver's type fits. -/
theorem CallsMethod.isOk_iff (calls : CallsMethod scope line name receiverNode nodes result) :
    result.isOk = true ↔
      ∃ overload ∈ scope.frames.flatMap (·.extensionOverloads name),
        overload.Fits ((receiverNode :: nodes).map Node.type) (some receiverNode.type) := by
  cases calls with
  | extension first =>
    have fits := Overload.exists_firstFit.mp ⟨_, first⟩
    exact ⟨fun _ => fits, fun _ => rfl⟩
  | unfit unfit =>
    refine ⟨nofun, ?_⟩
    rintro ⟨overload, mem, fits⟩
    exact absurd fits (unfit overload mem)

end Method

/-- A call whose arguments lower, and whose receiver does if it is a method, ends as the rules say
and in no other way, and it leaves the scope as the arguments do. If overloads of a bare name are to
be seen, the call lowers if and only if one of them has no receiver and a parameter for each
argument that accepts it; a call of a method does if and only if an extension of exactly the
receiver's type fits. -/
theorem call_is_first_match (r : Option Ty) (line : Line) (name : String) (arguments : List Expr)
    (nodes : List Node) (s s₁ s' : State) :
    (∀ calleeLine, lowerExprs r arguments s = (.ok nodes, s') →
      (∀ result after,
        lowerExpr r (.call line (.name calleeLine name) arguments) s = (result, after) ↔
          CallsName s'.scope line calleeLine name nodes result ∧ after = s') ∧
      (s'.scope.overloads name ≠ [] →
        ((lowerExpr r (.call line (.name calleeLine name) arguments) s).1.isOk = true ↔
          ∃ overload ∈ s'.scope.overloads name, overload.Fits (nodes.map Node.type) none))) ∧
    ∀ getLine receiver receiverNode, lowerExpr r receiver s = (.ok receiverNode, s₁) →
      lowerExprs r arguments s₁ = (.ok nodes, s') →
      (∀ result after,
        lowerExpr r (.call line (.get getLine receiver name) arguments) s = (result, after) ↔
          CallsMethod s'.scope line name receiverNode nodes result ∧ after = s') ∧
      ((lowerExpr r (.call line (.get getLine receiver name) arguments) s).1.isOk = true ↔
        ∃ overload ∈ s'.scope.frames.flatMap (·.extensionOverloads name),
          overload.Fits ((receiverNode :: nodes).map Node.type) (some receiverNode.type)) := by
  constructor
  · intro calleeLine lowered
    have calls := callsName_iff.mpr (Eq.refl (s'.scope.resolveCallee calleeLine name
      (nodes.map Node.type) >>= fun callee => Typing.call line callee nodes))
    rw [lowerExpr_callName lowered]
    refine ⟨fun result after => ?_, calls.isOk_iff⟩
    rw [Prod.mk.injEq, callsName_iff, eq_comm (a := s')]
  · intro getLine receiver receiverNode first second
    have calls := callsMethod_iff.mpr (Eq.refl (s'.scope.resolveMethod line receiverNode.type name
      ((receiverNode :: nodes).map Node.type) >>=
        fun callee => Typing.call line callee (receiverNode :: nodes)))
    rw [lowerExpr_callMethod first second]
    refine ⟨fun result after => ?_, calls.isOk_iff⟩
    rw [Prod.mk.injEq, callsMethod_iff, eq_comm (a := s')]

/-- A function of numbers and one of texts, and an extension of texts, all of one name. -/
def overloaded : Scope :=
  ((Scope.builtins.defineFunction "f" ⟨[("n", .int)], .int, none⟩).defineFunction "f"
    ⟨[("t", .string)], .string, none⟩).defineExtension "f"
      ⟨[("this", .string), ("n", .int)], .int, some .string⟩

theorem call_is_first_match_overloaded :
    let number : Expr := .literal ⟨1⟩ (.scalar (.int 1))
    let text : Expr := .literal ⟨1⟩ (.scalar (.string "a"))
    let numberNode : Node := .literal ⟨.int, ⟨1⟩⟩ (.scalar (.int 1))
    let textNode : Node := .literal ⟨.string, ⟨1⟩⟩ (.scalar (.string "a"))
    let ofTexts : FnTy := ⟨[("t", .string)], .string, none⟩
    let extension : FnTy := ⟨[("this", .string), ("n", .int)], .int, some .string⟩
    lowerExpr none (.call ⟨1⟩ (.name ⟨1⟩ "f") [text]) ⟨overloaded, 0⟩ =
        (.ok (Typing.callNode ⟨1⟩ (.readFunction ⟨.fn ofTexts, ⟨1⟩⟩ "f-1") ofTexts [textNode]),
          ⟨overloaded, 0⟩) ∧
      lowerExpr none (.call ⟨1⟩ (.get ⟨1⟩ text "f") [number]) ⟨overloaded, 0⟩ =
        (.ok (Typing.callNode ⟨1⟩ (.readFunction ⟨.fn extension, ⟨1⟩⟩ "f-2") extension
          [textNode, numberNode]), ⟨overloaded, 0⟩) := by
  intro number text numberNode textNode ofTexts extension
  obtain ⟨named, -⟩ := call_is_first_match none ⟨1⟩ "f" [text] [textNode] ⟨overloaded, 0⟩
    ⟨overloaded, 0⟩ ⟨overloaded, 0⟩
  obtain ⟨-, methods⟩ := call_is_first_match none ⟨1⟩ "f" [number] [numberNode] ⟨overloaded, 0⟩
    ⟨overloaded, 0⟩ ⟨overloaded, 0⟩
  have second : Overload.FirstFit (overloaded.frames.flatMap (·.overloads "f")) [.string] none
      ⟨"f-1", ofTexts⟩ :=
    Overload.firstMatch?_eq_some_iff.mp (by decide +kernel)
  have third : Overload.FirstFit (overloaded.frames.flatMap (·.extensionOverloads "f"))
      [.string, .int] (some .string) ⟨"f-2", extension⟩ :=
    Overload.firstMatch?_eq_some_iff.mp (by decide +kernel)
  have calls : CallsName overloaded ⟨1⟩ ⟨1⟩ "f" [textNode] _ := .overload second
  have callsMethod : CallsMethod overloaded ⟨1⟩ "f" textNode [numberNode] _ := .extension third
  constructor
  · exact ((named ⟨1⟩ rfl).1 _ _).mpr ⟨calls, rfl⟩
  · exact ((methods ⟨1⟩ text textNode rfl rfl).1 _ _).mpr ⟨callsMethod, rfl⟩

end Lowering

end ScriptCore
