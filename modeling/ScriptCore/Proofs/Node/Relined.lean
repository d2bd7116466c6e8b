import ScriptCore.Lowering.Unit
import ScriptCore.Proofs.Attempt

/-!
# Trees on other lines

Moving a source tree to other lines replaces the line of every piece of it. What it lowers to is
then on other lines as well, apart from the returns that lowering adds, which have no line to be
moved (`Node.Relined`).
-/
namespace ScriptCore

mutual

/-- The expression with every line replaced. -/
def Expr.mapLines (f : Line → Line) : Expr → Expr
  | .literal line value => .literal (f line) value
  | .name line name => .name (f line) name
  | .this line => .this (f line)
  | .group line inner => .group (f line) (inner.mapLines f)
  | .assign line name value => .assign (f line) name (value.mapLines f)
  | .unary line op right => .unary (f line) op (right.mapLines f)
  | .binary line op left right => .binary (f line) op (left.mapLines f) (right.mapLines f)
  | .logical line op left right => .logical (f line) op (left.mapLines f) (right.mapLines f)
  | .get line receiver name => .get (f line) (receiver.mapLines f) name
  | .set line receiver name value => .set (f line) (receiver.mapLines f) name (value.mapLines f)
  | .call line callee arguments =>
    .call (f line) (callee.mapLines f) (Expr.mapLinesAll f arguments)
  | .branch line condition whenTrue whenFalse =>
    .branch (f line) (condition.mapLines f) (Stmt.mapLinesAll f whenTrue)
      (Stmt.mapLinesAll f whenFalse)
  | .function line receiver name signature body =>
    .function (f line) receiver name signature (Stmt.mapLinesAll f body)
  | .anonymous line signature body => .anonymous (f line) signature (Stmt.mapLinesAll f body)
  | .native line name signature => .native (f line) name signature

def Expr.mapLinesAll (f : Line → Line) : List Expr → List Expr
  | [] => []
  | expr :: rest => expr.mapLines f :: Expr.mapLinesAll f rest

/-- The statement with every line replaced. -/
def Stmt.mapLines (f : Line → Line) : Stmt → Stmt
  | .expr value => .expr (value.mapLines f)
  | .block line body => .block (f line) (Stmt.mapLinesAll f body)
  | .loop line condition body => .loop (f line) (condition.mapLines f) (Stmt.mapLinesAll f body)
  | .returns line value => .returns (f line) (value.mapLines f)
  | .bind line mutability name typeName value =>
    .bind (f line) mutability name typeName (value.mapLines f)
  | .useModule line name => .useModule (f line) name
  | .openModule line name => .openModule (f line) name
  | .record line name fields => .record (f line) name fields

def Stmt.mapLinesAll (f : Line → Line) : List Stmt → List Stmt
  | [] => []
  | stmt :: rest => stmt.mapLines f :: Stmt.mapLinesAll f rest

end

section Headers

variable (f : Line → Line)

def Tag.mapLine (tag : Tag) : Tag := { tag with line := f tag.line }

def FunctionHeader.mapLine (header : FunctionHeader) : FunctionHeader :=
  { header with line := f header.line }

def NativeHeader.mapLine (header : NativeHeader) : NativeHeader :=
  { header with line := f header.line }

def AnonymousHeader.mapLine (header : AnonymousHeader) : AnonymousHeader :=
  { header with line := f header.line }

def RecordHeader.mapLine (header : RecordHeader) : RecordHeader :=
  { header with line := f header.line }

end Headers

open Lowering (syntheticReturn)

/-- `Relined f node node'`: the second node is the first one with every line replaced, except that
a return that lowering has put at the end of an extension function stays as it is. -/
inductive Node.Relined (f : Line → Line) : Node → Node → Prop
  | literal {tag : Tag} {value : Literal} :
      Relined f (.literal tag value) (.literal (tag.mapLine f) value)
  | this {tag : Tag} : Relined f (.this tag) (.this (tag.mapLine f))
  | readVariable {tag : Tag} {name : String} :
      Relined f (.readVariable tag name) (.readVariable (tag.mapLine f) name)
  | readFunction {tag : Tag} {name : String} :
      Relined f (.readFunction tag name) (.readFunction (tag.mapLine f) name)
  | get {tag : Tag} {receiver receiver' : Node} {name : String}
      (below : Relined f receiver receiver') :
      Relined f (.get tag receiver name) (.get (tag.mapLine f) receiver' name)
  | set {tag : Tag} {receiver receiver' value value' : Node} {name : String}
      (left : Relined f receiver receiver') (right : Relined f value value') :
      Relined f (.set tag receiver name value) (.set (tag.mapLine f) receiver' name value')
  | call {tag : Tag} {callee callee' : Node} {arguments arguments' : List (String × Node)}
      (called : Relined f callee callee') (keys : arguments'.map Prod.fst = arguments.map Prod.fst)
      (given : List.Forall₂ (Relined f) (arguments.map Prod.snd) (arguments'.map Prod.snd)) :
      Relined f (.call tag callee arguments) (.call (tag.mapLine f) callee' arguments')
  | unary {tag : Tag} {op : UnaryOp} {right right' : Node} (below : Relined f right right') :
      Relined f (.unary tag op right) (.unary (tag.mapLine f) op right')
  | binary {tag : Tag} {op : BinaryOp} {left left' right right' : Node}
      (first : Relined f left left') (second : Relined f right right') :
      Relined f (.binary tag op left right) (.binary (tag.mapLine f) op left' right')
  | logical {tag : Tag} {op : LogicalOp} {left left' right right' : Node}
      (first : Relined f left left') (second : Relined f right right') :
      Relined f (.logical tag op left right) (.logical (tag.mapLine f) op left' right')
  | bind {tag : Tag} {mutability : Mutability} {name : String} {value value' : Node}
      (below : Relined f value value') :
      Relined f (.bind tag mutability name value) (.bind (tag.mapLine f) mutability name value')
  | assign {tag : Tag} {name : String} {value value' : Node} (below : Relined f value value') :
      Relined f (.assign tag name value) (.assign (tag.mapLine f) name value')
  | returns {tag : Tag} {value value' : Node} (below : Relined f value value') :
      Relined f (.returns tag value) (.returns (tag.mapLine f) value')
  | block {tag : Tag} {body body' : List Node} (bodies : List.Forall₂ (Relined f) body body') :
      Relined f (.block tag body) (.block (tag.mapLine f) body')
  | loop {tag : Tag} {condition condition' : Node} {body body' : List Node}
      (test : Relined f condition condition') (bodies : List.Forall₂ (Relined f) body body') :
      Relined f (.loop tag condition body) (.loop (tag.mapLine f) condition' body')
  | branch {tag : Tag} {condition condition' : Node}
      {whenTrue whenTrue' whenFalse whenFalse' : List Node}
      (test : Relined f condition condition')
      (first : List.Forall₂ (Relined f) whenTrue whenTrue')
      (second : List.Forall₂ (Relined f) whenFalse whenFalse') :
      Relined f (.branch tag condition whenTrue whenFalse)
        (.branch (tag.mapLine f) condition' whenTrue' whenFalse')
  | function {tag : Tag} {header : FunctionHeader} {body body' : List Node}
      (bodies : List.Forall₂ (Relined f) body body') :
      Relined f (.function tag header body)
        (.function (tag.mapLine f) (header.mapLine f) body')
  | extension {tag : Tag} {header : FunctionHeader} {body body' : List Node}
      (receiver : header.type.receiver.isSome = true) (none : anyContainsReturn body = false)
      (bodies : List.Forall₂ (Relined f) body body') :
      Relined f (.function tag header (body ++ [syntheticReturn]))
        (.function (tag.mapLine f) (header.mapLine f) (body' ++ [syntheticReturn]))
  | native {tag : Tag} {header : NativeHeader} :
      Relined f (.native tag header) (.native (tag.mapLine f) (header.mapLine f))
  | anonymous {tag : Tag} {header : AnonymousHeader} {body body' : List Node}
      (bodies : List.Forall₂ (Relined f) body body') :
      Relined f (.anonymous tag header body)
        (.anonymous (tag.mapLine f) (header.mapLine f) body')
  | record {tag : Tag} {header : RecordHeader} :
      Relined f (.record tag header) (.record (tag.mapLine f) (header.mapLine f))
  | openModule {tag : Tag} {name : String} :
      Relined f (.openModule tag name) (.openModule (tag.mapLine f) name)
  | useModule {tag : Tag} {name : String} :
      Relined f (.useModule tag name) (.useModule (tag.mapLine f) name)

namespace Node

variable {f : Line → Line} {node node' : Node} {body body' : List Node}

theorem Relined.tag_eq (relined : Relined f node node') : node'.tag = node.tag.mapLine f := by
  cases relined <;> rfl

theorem Relined.type_eq (relined : Relined f node node') : node'.type = node.type := by
  rw [type, relined.tag_eq]
  rfl

theorem Relined.line_eq (relined : Relined f node node') : node'.line = f node.line := by
  rw [line, relined.tag_eq]
  rfl

theorem valueType?_of_forall₂ (bodies : List.Forall₂ (Relined f) body body') :
    valueType? body' = valueType? body := by
  rw [valueType?, valueType?]
  rcases rel_cases (rel_getLast? bodies) with ⟨missing, missing'⟩ | ⟨_, _, there, there', same⟩
  · rw [missing, missing']
  · rw [there, there']
    cases same <;> rfl

theorem types_of_forall₂ (bodies : List.Forall₂ (Relined f) body body') :
    body'.map type = body.map type := by
  induction bodies with
  | nil => rfl
  | cons head _ ih => rw [List.map_cons, List.map_cons, head.type_eq, ih]

end Node

end ScriptCore
