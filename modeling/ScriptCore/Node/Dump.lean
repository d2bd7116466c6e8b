import ScriptCore.Node.Basic

/-!
# The text of a node

Nodes are written on one line, for people to read. Calls and field reads show their types,
functions show their signatures but not their bodies.
-/
namespace ScriptCore

def FunctionHeader.render (header : FunctionHeader) : String :=
  "func " ++ header.name ++ "(" ++ Parameters.render header.type.parameters ++ "): " ++
    header.type.result.render

def NativeHeader.render (header : NativeHeader) : String :=
  "external func " ++ header.name ++ "(" ++ Parameters.render header.type.parameters ++
    "): " ++ header.type.result.render

def AnonymousHeader.render (header : AnonymousHeader) : String :=
  "func (" ++ Parameters.render header.type.parameters ++ "): " ++ header.type.result.render

def RecordHeader.render (header : RecordHeader) : String :=
  "type class " ++ header.name ++ "(" ++ Parameters.render header.fields ++ ")"

namespace Node

/-- The word that declares a binding. -/
def keyword : Mutability → String
  | .immutable => "val"
  | .mutable => "var"

/-- A body stands between braces. -/
def braced (steps : String) : String := "\x7b" ++ steps ++ " \x7d"

mutual

def render : Node → String
  | literal _ value => value.source
  | this _ => "this"
  | readVariable _ name | readFunction _ name => name
  | get tag receiver name =>
    "get " ++ render receiver ++ "." ++ name ++ ": " ++ tag.type.render
  | set _ receiver name value => "set " ++ render receiver ++ "." ++ name ++ " " ++ render value
  | call tag callee arguments =>
    "call " ++ render callee ++ "(" ++ renderArguments arguments ++ "): " ++ tag.type.render
  | unary _ op right => "(" ++ op.symbol ++ render right ++ ")"
  | binary _ op left right => "(" ++ render left ++ " " ++ op.symbol ++ " " ++ render right ++ ")"
  | logical _ op left right => "(" ++ render left ++ " " ++ op.symbol ++ " " ++ render right ++ ")"
  | bind _ mutability name value => keyword mutability ++ " " ++ name ++ " " ++ render value
  | assign _ name value => "assign " ++ name ++ " " ++ render value
  | returns _ value => "return " ++ render value
  | block _ body => "block " ++ braced (renderSteps body)
  | loop _ condition body => "while " ++ render condition ++ " " ++ braced (renderSteps body)
  | branch _ condition whenTrue [] =>
    "if " ++ render condition ++ " " ++ braced (renderSteps whenTrue)
  | branch _ condition whenTrue whenFalse =>
    "if " ++ render condition ++ " " ++ braced (renderSteps whenTrue) ++ " else " ++
      braced (renderSteps whenFalse)
  | function _ header _ => header.render
  | native _ header => header.render
  | anonymous _ header _ => header.render
  | record _ header => header.render
  | openModule _ name => "module " ++ name
  | useModule _ name => "use " ++ name

/-- Each argument after the name of its parameter, separated by commas. -/
def renderArguments : List (String × Node) → String
  | [] => ""
  | [(name, value)] => name ++ ": " ++ render value
  | (name, value) :: rest => name ++ ": " ++ render value ++ ", " ++ renderArguments rest

/-- The nodes of a body, each with a semicolon behind it. -/
def renderSteps : List Node → String
  | [] => ""
  | node :: rest => " " ++ render node ++ ";" ++ renderSteps rest

end

end Node

end ScriptCore
