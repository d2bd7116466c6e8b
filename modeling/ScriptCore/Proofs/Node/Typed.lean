import Mathlib.Data.List.Forall2
import ScriptCore.Node.Return
import ScriptCore.Proofs.Node.Parts
import ScriptCore.Ty.OfLiteral
import ScriptCore.Ty.Overload

/-!
# Typing of nodes

`Typed declared returned node` says that a node and everything below it, the bodies of functions
included, keeps the typing rules inside a function with the result type `returned`. The names
that it reads and declares are those of `declared`. A node is well typed when it keeps the rules
whatever names there are.
-/
namespace ScriptCore

/-- What a program declares: variables by name, functions by indexed name, the functions that
its host supplies, and the classes of its values. -/
structure Declarations where
  vars : String → Ty → Prop
  functions : String → FnTy → Prop
  hosts : FnTy → Prop
  classes : ClassTy → Prop

/-- No restriction on names. -/
def Declarations.any : Declarations :=
  ⟨fun _ _ => True, fun _ _ => True, fun _ => True, fun _ => True⟩

/-- A type whose classes are all of one kind and whose function types, at any depth, have
parameters of different names. -/
inductive Ty.Within (classes : ClassTy → Prop) : Ty → Prop
  | cls {type : ClassTy} (known : classes type)
      (fields : ∀ field ∈ type.fields, Within classes field.2) : Within classes (.cls type)
  | fn {type : FnTy} (distinct : (Parameters.names type.parameters).Nodup)
      (parameters : ∀ parameter ∈ type.parameters, Within classes parameter.2)
      (result : Within classes type.result) : Within classes (.fn type)

/-- The type of a branch: that of the first body if both have a value, and `Unit` otherwise. -/
def Node.IsBranchType (type : Ty) (whenTrue whenFalse : List Node) : Prop :=
  type = .unit ∨ ∃ other, Node.valueType? whenTrue = some type ∧
    Node.valueType? whenFalse = some other ∧ type.accepts other = true

inductive Typed (declared : Declarations) : Option Ty → Node → Prop
  | literal {r : Option Ty} {line : Line} {value : Literal} :
      Typed declared r (.literal ⟨value.type, line⟩ value)
  | this {r : Option Ty} {tag : Tag}
      (known : tag.type = .any ∨ declared.vars "this" tag.type) :
      Typed declared r (.this tag)
  | readVariable {r : Option Ty} {tag : Tag} {name : String}
      (known : declared.vars name tag.type) :
      Typed declared r (.readVariable tag name)
  | readFunction {r : Option Ty} {line : Line} {type : FnTy} {name : String}
      (known : declared.functions name type) :
      Typed declared r (.readFunction ⟨.fn type, line⟩ name)
  | get {r : Option Ty} {tag : Tag} {receiver : Node} {name : String} {owner : ClassTy}
      (receiverTyped : Typed declared r receiver) (isOwner : receiver.type = .cls owner)
      (known : declared.classes owner)
      (field : Parameters.get? owner.fields name = some tag.type) :
      Typed declared r (.get tag receiver name)
  | set {r : Option Ty} {line : Line} {receiver value : Node} {name : String} {owner : ClassTy}
      {type : Ty} (receiverTyped : Typed declared r receiver)
      (isOwner : receiver.type = .cls owner) (known : declared.classes owner)
      (field : Parameters.get? owner.fields name = some type)
      (valueTyped : Typed declared r value) (accepted : type.accepts value.type = true) :
      Typed declared r (.set ⟨.unit, line⟩ receiver name value)
  | call {r : Option Ty} {line : Line} {callee : Node} {arguments : List (String × Node)}
      {type : FnTy} (calleeTyped : Typed declared r callee) (isFunction : callee.type = .fn type)
      (argumentsTyped : ∀ argument ∈ arguments, Typed declared r argument.2)
      (keyed : arguments.map Prod.fst = Parameters.names type.parameters)
      (distinct : (arguments.map Prod.fst).Nodup)
      (accepted : List.Forall₂ (fun parameter argument => parameter.2.accepts argument.2.type = true)
        type.parameters arguments) :
      Typed declared r (.call ⟨type.result, line⟩ callee arguments)
  | negation {r : Option Ty} {line : Line} {right : Node} (rightTyped : Typed declared r right)
      (number : right.type.isNumber = true) :
      Typed declared r (.unary ⟨right.type, line⟩ .neg right)
  | complement {r : Option Ty} {line : Line} {right : Node} (rightTyped : Typed declared r right)
      (boolean : right.type = .boolean) :
      Typed declared r (.unary ⟨.boolean, line⟩ .not right)
  | arithmetic {r : Option Ty} {line : Line} {op : BinaryOp} {left right : Node}
      (leftTyped : Typed declared r left) (rightTyped : Typed declared r right)
      (arithmetic : op.isArithmetic = true) (leftNumber : left.type.isNumber = true)
      (rightNumber : right.type.isNumber = true) :
      Typed declared r (.binary ⟨.double, line⟩ op left right)
  | concatenation {r : Option Ty} {line : Line} {left right : Node}
      (leftTyped : Typed declared r left) (rightTyped : Typed declared r right)
      (text : left.type = .string) :
      Typed declared r (.binary ⟨.string, line⟩ .add left right)
  | comparison {r : Option Ty} {line : Line} {op : BinaryOp} {left right : Node}
      (leftTyped : Typed declared r left) (rightTyped : Typed declared r right)
      (comparison : op.isComparison = true) (leftNumber : left.type.isNumber = true)
      (rightNumber : right.type.isNumber = true) :
      Typed declared r (.binary ⟨.boolean, line⟩ op left right)
  | equality {r : Option Ty} {line : Line} {op : BinaryOp} {left right : Node}
      (leftTyped : Typed declared r left) (rightTyped : Typed declared r right)
      (equality : op.isEquality = true)
      (comparable : left.type.accepts right.type = true ∨ right.type.accepts left.type = true) :
      Typed declared r (.binary ⟨.boolean, line⟩ op left right)
  | logical {r : Option Ty} {line : Line} {op : LogicalOp} {left right : Node}
      (leftTyped : Typed declared r left) (rightTyped : Typed declared r right)
      (leftBoolean : left.type = .boolean) (rightBoolean : right.type = .boolean) :
      Typed declared r (.logical ⟨.boolean, line⟩ op left right)
  | bind {r : Option Ty} {tag : Tag} {mutability : Mutability} {name : String} {value : Node}
      (valueTyped : Typed declared r value) (known : declared.vars name tag.type)
      (accepted : tag.type.accepts value.type = true) :
      Typed declared r (.bind tag mutability name value)
  | assign {r : Option Ty} {tag : Tag} {name : String} {value : Node}
      (valueTyped : Typed declared r value) (known : declared.vars name tag.type)
      (accepted : tag.type.accepts value.type = true) :
      Typed declared r (.assign tag name value)
  | returns {r : Option Ty} {line : Line} {value : Node} (valueTyped : Typed declared r value)
      (accepted : ∀ type, r = some type → type.accepts value.type = true) :
      Typed declared r (.returns ⟨value.type, line⟩ value)
  | block {r : Option Ty} {line : Line} {body : List Node}
      (bodyTyped : ∀ node ∈ body, Typed declared r node) :
      Typed declared r (.block ⟨.unit, line⟩ body)
  | loop {r : Option Ty} {line : Line} {condition : Node} {body : List Node}
      (conditionTyped : Typed declared r condition) (boolean : condition.type = .boolean)
      (bodyTyped : ∀ node ∈ body, Typed declared r node) :
      Typed declared r (.loop ⟨.unit, line⟩ condition body)
  | branch {r : Option Ty} {tag : Tag} {condition : Node} {whenTrue whenFalse : List Node}
      (conditionTyped : Typed declared r condition) (boolean : condition.type = .boolean)
      (trueTyped : ∀ node ∈ whenTrue, Typed declared r node)
      (falseTyped : ∀ node ∈ whenFalse, Typed declared r node)
      (value : Node.IsBranchType tag.type whenTrue whenFalse) :
      Typed declared r (.branch tag condition whenTrue whenFalse)
  | function {r : Option Ty} {line : Line} {header : FunctionHeader} {body : List Node}
      (named : ∃ index, header.name = overloadName header.plainName index)
      (known : declared.functions header.name header.type)
      (parameters : ∀ parameter ∈ header.type.parameters,
        declared.vars parameter.1 parameter.2)
      (bodyTyped : ∀ node ∈ body, Typed declared (some header.type.result) node)
      (complete : header.type.result = .unit ∨ Node.anyContainsReturn body = true) :
      Typed declared r (.function ⟨.fn header.type, line⟩ header body)
  | anonymous {r : Option Ty} {line : Line} {header : AnonymousHeader} {body : List Node}
      (parameters : ∀ parameter ∈ header.type.parameters,
        declared.vars parameter.1 parameter.2)
      (bodyTyped : ∀ node ∈ body, Typed declared (some header.type.result) node)
      (complete : header.type.result = .unit ∨ Node.anyContainsReturn body = true) :
      Typed declared r (.anonymous ⟨.fn header.type, line⟩ header body)
  | native {r : Option Ty} {line : Line} {header : NativeHeader}
      (named : ∃ index, header.name = overloadName header.hostName index)
      (known : declared.functions header.name header.type)
      (host : declared.hosts header.type) :
      Typed declared r (.native ⟨.fn header.type, line⟩ header)
  | record {r : Option Ty} {tag : Tag} {header : RecordHeader}
      (known : declared.classes ⟨some header.name, header.fields, [header.fields]⟩) :
      Typed declared r (.record tag header)
  | openModule {r : Option Ty} {line : Line} {name : String} :
      Typed declared r (.openModule ⟨.unit, line⟩ name)
  | useModule {r : Option Ty} {line : Line} {name : String} :
      Typed declared r (.useModule ⟨.unit, line⟩ name)

/-- The nodes directly below a typed node are typed. -/
theorem Typed.parts {declared : Declarations} {r : Option Ty} {node : Node}
    (typed : Typed declared r node) : ∀ part ∈ node.parts, ∃ r, Typed declared r part := by
  cases typed with
  | literal | this | readVariable | readFunction | native | record | openModule | useModule =>
    nofun
  | get receiver | negation receiver | complement receiver | bind receiver | assign receiver
  | returns receiver => exact List.forall_mem_singleton.mpr ⟨r, receiver⟩
  | set left _ _ _ right | arithmetic left right | concatenation left right
  | comparison left right | equality left right | logical left right =>
    exact List.forall_mem_cons.mpr ⟨⟨r, left⟩, List.forall_mem_singleton.mpr ⟨r, right⟩⟩
  | call callee _ arguments =>
    refine List.forall_mem_cons.mpr ⟨⟨r, callee⟩, List.forall_mem_map.mpr ?_⟩
    exact fun argument mem => ⟨r, arguments argument mem⟩
  | block body => exact fun part mem => ⟨r, body part mem⟩
  | loop condition _ body =>
    exact List.forall_mem_cons.mpr ⟨⟨r, condition⟩, fun part mem => ⟨r, body part mem⟩⟩
  | branch condition _ whenTrue whenFalse =>
    refine List.forall_mem_cons.mpr ⟨⟨r, condition⟩, List.forall_mem_append.mpr ⟨?_, ?_⟩⟩
    · exact fun part mem => ⟨r, whenTrue part mem⟩
    · exact fun part mem => ⟨r, whenFalse part mem⟩
  | function _ _ _ body => exact fun part mem => ⟨_, body part mem⟩
  | anonymous _ body => exact fun part mem => ⟨_, body part mem⟩

/-- The nodes of a typed body are typed at every depth. -/
theorem Typed.all {declared : Declarations} {r : Option Ty} {body : List Node}
    (typed : ∀ node ∈ body, Typed declared r node) :
    ∀ node ∈ Node.all body, ∃ r, Typed declared r node :=
  Node.forall_mem_all (fun _ ⟨_, typed⟩ => typed.parts) fun node mem => ⟨r, typed node mem⟩

/-- A well typed node, inside a function with the result type `returned` if there is one. -/
def Node.WellTyped (returned : Option Ty) (node : Node) : Prop := Typed .any returned node

end ScriptCore
