import ScriptCore.Value

/-!
# Resolved nodes

A context lists the variables and the functions in sight. A node is resolved in a context that has
every name that its evaluation looks up, where a function that it declares takes an indexed name of
its own. A context is closed if what each of its functions looks up is in sight where the function
is declared.
-/
namespace ScriptCore

/-- A name in sight. -/
inductive Item
  | var (name : String)
  | fn (name : String) (callable : Callable)

/-- The names in sight, the newest first. -/
abbrev Context := List Item

/-- What a node adds to the names in sight. -/
def Node.declares : Node → Context
  | .bind _ _ name _ => [.var name]
  | .function _ header body => [.fn header.name (.function header body)]
  | .native _ header => [.fn header.name (.native header)]
  | _ => []

namespace Context

def ofParameters (parameters : Parameters) : Context :=
  (Parameters.names parameters).map .var

/-- The names in sight behind some nodes. -/
def extend (context : Context) : List Node → Context
  | [] => context
  | node :: rest => extend (node.declares ++ context) rest

/-- No function in sight has this indexed name. -/
def Fresh (context : Context) (name : String) : Prop := ∀ callable, .fn name callable ∉ context

mutual

inductive Resolves : Context → Node → Prop
  | literal {context : Context} {tag : Tag} {value : Literal} :
      Resolves context (.literal tag value)
  | this {context : Context} {tag : Tag} (bound : .var "this" ∈ context) :
      Resolves context (.this tag)
  | readVariable {context : Context} {tag : Tag} {name : String} (bound : .var name ∈ context) :
      Resolves context (.readVariable tag name)
  | readFunction {context : Context} {tag : Tag} {name : String} {callable : Callable}
      (known : .fn name callable ∈ context) (typed : tag.type = .fn callable.type) :
      Resolves context (.readFunction tag name)
  | get {context : Context} {tag : Tag} {receiver : Node} {name : String} :
      Resolves context (.get tag receiver name)
  | set {context : Context} {tag : Tag} {receiver value : Node} {name : String} :
      Resolves context (.set tag receiver name value)
  | call {context : Context} {tag calleeTag : Tag} {name : String} {callable : Callable}
      {arguments : List (String × Node)} (known : .fn name callable ∈ context)
      (keys : arguments.map Prod.fst = Parameters.names callable.type.parameters)
      (values : ∀ argument ∈ arguments, Resolves context argument.2) :
      Resolves context (.call tag (.readFunction calleeTag name) arguments)
  | unary {context : Context} {tag : Tag} {op : UnaryOp} {right : Node}
      (operand : Resolves context right) : Resolves context (.unary tag op right)
  | binary {context : Context} {tag : Tag} {op : BinaryOp} {left right : Node}
      (first : Resolves context left) (second : Resolves context right) :
      Resolves context (.binary tag op left right)
  | logical {context : Context} {tag : Tag} {op : LogicalOp} {left right : Node}
      (first : Resolves context left) (second : Resolves context right) :
      Resolves context (.logical tag op left right)
  | bind {context : Context} {tag : Tag} {mutability : Mutability} {name : String} {value : Node}
      (bound : Resolves context value) : Resolves context (.bind tag mutability name value)
  | assign {context : Context} {tag : Tag} {name : String} {value : Node}
      (bound : .var name ∈ context) (assigned : Resolves context value) :
      Resolves context (.assign tag name value)
  | returns {context : Context} {tag : Tag} {value : Node} (result : Resolves context value) :
      Resolves context (.returns tag value)
  | block {context : Context} {tag : Tag} {body : List Node} (nodes : ResolvesBody context body) :
      Resolves context (.block tag body)
  | loop {context : Context} {tag : Tag} {condition : Node} {body : List Node}
      (test : Resolves context condition) (nodes : ResolvesBody context body) :
      Resolves context (.loop tag condition body)
  | branch {context : Context} {tag : Tag} {condition : Node} {whenTrue whenFalse : List Node}
      (test : Resolves context condition) (first : ResolvesBody context whenTrue)
      (second : ResolvesBody context whenFalse) :
      Resolves context (.branch tag condition whenTrue whenFalse)
  | function {context : Context} {tag : Tag} {header : FunctionHeader} {body : List Node}
      (fresh : context.Fresh header.name)
      (nodes : ResolvesBody (ofParameters header.type.parameters ++
        .fn header.name (.function header body) :: context) body) :
      Resolves context (.function tag header body)
  | native {context : Context} {tag : Tag} {header : NativeHeader}
      (fresh : context.Fresh header.name) (host : header.hostName = "println") :
      Resolves context (.native tag header)

/-- The nodes of a body are resolved one after the other. -/
inductive ResolvesBody : Context → List Node → Prop
  | nil {context : Context} : ResolvesBody context []
  | cons {context : Context} {node : Node} {rest : List Node} (head : Resolves context node)
      (tail : ResolvesBody (node.declares ++ context) rest) : ResolvesBody context (node :: rest)

end

inductive Closed : Context → Prop
  | nil : Closed []
  | var {context : Context} {name : String} (closed : Closed context) :
      Closed (.var name :: context)
  | function {context : Context} {header : FunctionHeader} {body : List Node}
      (closed : Closed context)
      (nodes : ResolvesBody (ofParameters header.type.parameters ++
        .fn header.name (.function header body) :: context) body) :
      Closed (.fn header.name (.function header body) :: context)
  | native {context : Context} {header : NativeHeader} (closed : Closed context)
      (host : header.hostName = "println") : Closed (.fn header.name (.native header) :: context)
  | constructor {context : Context} {name : String} {header : BuiltinConstructor}
      (closed : Closed context) : Closed (.fn name (.constructor header) :: context)

/-- A callable that can be invoked where these names are in sight. -/
inductive Runs (context : Context) : Callable → Prop
  | function {known : Context} {header : FunctionHeader} {body : List Node}
      (within : known ⊆ context) (closed : known.Closed)
      (nodes : (ofParameters header.type.parameters ++ known).ResolvesBody body) :
      Runs context (.function header body)
  | native {header : NativeHeader} (host : header.hostName = "println") :
      Runs context (.native header)
  | constructor {header : BuiltinConstructor} : Runs context (.constructor header)

section

variable {context wider : Context} {name : String} {callable : Callable} {node : Node}

theorem Runs.mono (runs : context.Runs callable) (subset : context ⊆ wider) :
    wider.Runs callable := by
  cases runs with
  | function within closed nodes => exact .function (List.Subset.trans within subset) closed nodes
  | native host => exact .native host
  | constructor => exact .constructor

/-- Every function in sight can be invoked. -/
theorem Closed.runs (closed : context.Closed) (known : .fn name callable ∈ context) :
    context.Runs callable := by
  have weaken {item : Item} {rest : Context} (runs : rest.Runs callable) :
      Runs (item :: rest) callable := runs.mono (List.subset_cons_self item rest)
  induction closed with
  | nil => cases known
  | var rest ih =>
    rcases List.mem_cons.mp known with same | older
    · cases same
    · exact weaken (ih older)
  | function rest nodes ih =>
    rcases List.mem_cons.mp known with same | older
    · cases same
      exact .function (List.Subset.refl _) (.function rest nodes) nodes
    · exact weaken (ih older)
  | native rest host ih =>
    rcases List.mem_cons.mp known with same | older
    · cases same
      exact .native host
    · exact weaken (ih older)
  | constructor rest ih =>
    rcases List.mem_cons.mp known with same | older
    · cases same
      exact .constructor
    · exact weaken (ih older)

theorem Closed.parameters (closed : context.Closed) (parameters : Parameters) :
    (ofParameters parameters ++ context).Closed := by
  induction parameters with
  | nil => exact closed
  | cons parameter rest ih => exact .var ih

/-- What a resolved node declares can be invoked. -/
theorem Closed.declares (closed : context.Closed) (resolved : context.Resolves node) :
    (node.declares ++ context).Closed := by
  cases resolved with
  | bind => exact .var closed
  | function fresh nodes => exact .function closed nodes
  | native fresh host => exact .native closed host
  | _ => exact closed

theorem Closed.extend (closed : context.Closed) {body : List Node}
    (resolved : context.ResolvesBody body) : (context.extend body).Closed := by
  induction body generalizing context with
  | nil => exact closed
  | cons node rest ih =>
    cases resolved with
    | cons head tail => exact ih (closed.declares head) tail

end

end Context

end ScriptCore
