import ScriptCore.Node.Basic

/-!
# Layers of scopes around a node

A closure runs inside the scopes that it was created in, and looks its variables up by name when it
is called. By then these scopes may have more variables than where the closure stands. A layer says
of one scope which variables it has at a point of the body that is evaluated in it, which ones the
rest of the body declares, and whether a function has captured it. `Node.allUses` checks every use
of a variable in a node, a read or an assignment, against the layers that are around it.
-/
namespace ScriptCore

namespace Parameters

variable {first second : Parameters} {name other : String} {type : Ty}

theorem get?_append :
    get? (first ++ second) name = (get? first name).or (get? second name) := by
  simp only [get?, List.find?_append, Option.map_or]

theorem get?_singleton : get? [(name, type)] other = if name = other then some type else none := by
  by_cases same : name = other <;> simp [get?, same]

theorem get?_eq_none : get? first name = none ↔ name ∉ names first := by
  simp only [get?, names, Option.map_eq_none_iff, List.find?_eq_none, List.mem_map,
    decide_eq_true_eq]
  exact ⟨fun none ⟨parameter, mem, same⟩ => none parameter mem same,
    fun absent parameter mem same => absent ⟨parameter, mem, same⟩⟩

end Parameters

structure Layer where
  /-- The variables that have been declared, in order. -/
  now : Parameters
  /-- The variables that the rest of the body declares. -/
  later : Parameters
  /-- Whether it is entered from a function that may be called at any time. -/
  captured : Bool

/-- The layers around a point of a program, innermost first. -/
abbrev Layers := List Layer

namespace Layer

def capture (layer : Layer) : Layer := { layer with captured := true }

/-- Whether a search for a variable of this type that has not been declared in the layer leads on to
the right one: nothing but what is declared now can be there, or a captured scope may have a
variable of the name by then, but no other type for it. -/
def passes (layer : Layer) (name : String) (type : Ty) : Bool :=
  !layer.captured || (Parameters.get? layer.later name).all (· = type)

end Layer

namespace Layers

/-- Whether no captured scope on the way to where a variable has been declared declares the name
later with another type. -/
def steady : Layers → String → Ty → Bool
  | [], _, _ => true
  | layer :: outer, name, type =>
    (Parameters.get? layer.now name).isSome || (layer.passes name type && steady outer name type)

/-- Whether a variable that is looked up is of this type, whatever the captured scopes have been
given by then. -/
def finds : Layers → String → Ty → Bool
  | [], _, _ => false
  | layer :: outer, name, type =>
    match Parameters.get? layer.now name with
    | some known => known = type
    | none => layer.passes name type && finds outer name type

/-- Whether one scope has declared a name twice. Its second declaration fails, so nothing is ever
evaluated inside such layers. -/
def dead (layers : Layers) : Bool := layers.any fun layer => !(Parameters.names layer.now).Nodup

/-- Whether a use of a variable finds one of this type, if it is evaluated at all. -/
def resolves (layers : Layers) (name : String) (type : Ty) : Bool :=
  layers.dead || layers.finds name type

end Layers

namespace Node

/-- The variable that a node declares in the scope that it is evaluated in. -/
def binds : Node → Parameters
  | bind tag _ name _ => [(name, tag.type)]
  | _ => []

/-- The variables that the nodes of a body declare in one scope. -/
def bindsOf (body : List Node) : Parameters := body.flatMap binds

mutual

/-- Whether all uses of variables in a node are as they should be, given the layers around the node.
A declaration stands in a body alone. A named function runs in the scope of its caller, and a module
is a scope of its own, so that the layers around a use there are not known. -/
def allUses (use : Layers → String → Ty → Bool) (layers : Layers) : Node → Bool
  | literal _ _ | readFunction _ _ => true
  | readVariable tag name => use layers name tag.type
  | assign tag name value => allUses use layers value && use layers name tag.type
  | get _ value _ | unary _ _ value | returns _ value => allUses use layers value
  | set _ left _ right | binary _ _ left right | logical _ _ left right =>
    allUses use layers left && allUses use layers right
  | call _ callee arguments => allUses use layers callee && argumentUses use layers arguments
  | block _ body => bodyUses use [] layers body
  | loop _ condition body => allUses use layers condition && bodyUses use [] layers body
  | branch _ condition whenTrue whenFalse =>
    allUses use layers condition && bodyUses use [] layers whenTrue &&
      bodyUses use [] layers whenFalse
  | anonymous _ header body =>
    bodyUses use header.type.parameters (layers.map Layer.capture) body
  | this _ | bind _ _ _ _ | function _ _ _ | native _ _ | record _ _ | openModule _ _
  | useModule _ _ => false

/-- The uses in a body, which is evaluated in a scope that has some variables already. -/
def bodyUses (use : Layers → String → Ty → Bool) (now : Parameters) (outer : Layers) :
    List Node → Bool
  | [] => true
  | bind tag _ name value :: rest =>
    allUses use (⟨now, (name, tag.type) :: bindsOf rest, false⟩ :: outer) value &&
      bodyUses use (now ++ [(name, tag.type)]) outer rest
  | node :: rest =>
    allUses use (⟨now, bindsOf rest, false⟩ :: outer) node && bodyUses use now outer rest

def argumentUses (use : Layers → String → Ty → Bool) (layers : Layers) :
    List (String × Node) → Bool
  | [] => true
  | (_, value) :: rest => allUses use layers value && argumentUses use layers rest

end

variable {use : Layers → String → Ty → Bool} {layers : Layers}

theorem argumentUses_iff {arguments : List (String × Node)} :
    argumentUses use layers arguments = true ↔
      ∀ argument ∈ arguments, allUses use layers argument.2 = true := by
  induction arguments with
  | nil => simp [argumentUses]
  | cons argument rest ih => simp [argumentUses, ih]

theorem bindsOf_cons (node : Node) (rest : List Node) :
    bindsOf (node :: rest) = binds node ++ bindsOf rest :=
  List.flatMap_cons

theorem bodyUses_cons {now : Parameters} {outer : Layers} {node : Node} {rest : List Node}
    (declares : binds node = []) :
    bodyUses use now outer (node :: rest) =
      (allUses use (⟨now, bindsOf rest, false⟩ :: outer) node && bodyUses use now outer rest) := by
  cases node with
  | bind => cases declares
  | _ =>
    rw [bodyUses]
    nofun

end Node

end ScriptCore
