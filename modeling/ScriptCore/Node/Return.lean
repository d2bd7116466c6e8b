import ScriptCore.Node.Basic

/-!
# Where a node returns

`containsReturn` looks for a return in the parts of a node that run with it. The bodies of
the functions declared inside it have returns of their own and are not searched, and
neither is the condition of a loop.
-/
namespace ScriptCore.Node

mutual

def containsReturn : Node → Bool
  | returns _ _ => true
  | block _ body | loop _ _ body => anyContainsReturn body
  | branch _ condition whenTrue whenFalse =>
    containsReturn condition || anyContainsReturn whenTrue || anyContainsReturn whenFalse
  | bind _ _ _ value | assign _ _ value => containsReturn value
  | call _ callee arguments => containsReturn callee || anyArgumentContainsReturn arguments
  | unary _ _ right => containsReturn right
  | binary _ _ left right | logical _ _ left right =>
    containsReturn left || containsReturn right
  | get _ receiver _ => containsReturn receiver
  | set _ receiver _ value => containsReturn receiver || containsReturn value
  | literal _ _ | this _ | readVariable _ _ | readFunction _ _ | function _ _ _ | native _ _
  | anonymous _ _ _ | record _ _ | openModule _ _ | useModule _ _ => false

def anyContainsReturn : List Node → Bool
  | [] => false
  | node :: rest => containsReturn node || anyContainsReturn rest

def anyArgumentContainsReturn : List (String × Node) → Bool
  | [] => false
  | (_, value) :: rest => containsReturn value || anyArgumentContainsReturn rest

end

end ScriptCore.Node
