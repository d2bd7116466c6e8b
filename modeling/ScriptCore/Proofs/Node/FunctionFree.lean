import ScriptCore.Proofs.Node.Layers
import ScriptCore.Proofs.Node.Parts

/-!
# Nodes without functions

In a body without functions and calls, every layer around a use is live: nothing has captured it,
and it has only what has been declared. So the uses of such a body are steady. What a node yields
there can be read off its form. `yieldsUnit` says of a node that its value is `Unit` whenever it has
one, provided that all variables of that type are `Unit`. The value of a branch is that of the body
that is chosen, whatever its static type.
-/
namespace ScriptCore

namespace Layers

/-- Whether no function has captured a layer. -/
def live (layers : Layers) : Bool := layers.all (!·.captured)

theorem steady_of_live {layers : Layers} (live : layers.live = true) {name : String} {type : Ty} :
    layers.steady name type = true := by
  induction layers with
  | nil => rw [steady]
  | cons layer outer ih =>
    simp only [Layers.live, List.all_cons, Bool.and_eq_true] at live
    rw [steady, Layer.passes, live.1, Bool.true_or, Bool.true_and, ih live.2, Bool.or_true]

theorem live_cons {now later : Parameters} {layers : Layers} (live : layers.live = true) :
    Layers.live (⟨now, later, false⟩ :: layers) = true := by
  rw [Layers.live, List.all_cons]
  exact live

end Layers

namespace Node

mutual

/-- Whether a node is made of literals, names, assignments, operators, blocks, loops and branches,
with declarations in the bodies. -/
def isFunctionFree : Node → Bool
  | literal _ _ | readVariable _ _ | readFunction _ _ => true
  | assign _ _ value | unary _ _ value => isFunctionFree value
  | binary _ _ left right | logical _ _ left right => isFunctionFree left && isFunctionFree right
  | block _ body => bodyFunctionFree body
  | loop _ condition body => isFunctionFree condition && bodyFunctionFree body
  | branch _ condition whenTrue whenFalse =>
    isFunctionFree condition && bodyFunctionFree whenTrue && bodyFunctionFree whenFalse
  | this _ | get _ _ _ | set _ _ _ _ | call _ _ _ | bind _ _ _ _ | returns _ _ | function _ _ _
  | native _ _ | anonymous _ _ _ | record _ _ | openModule _ _ | useModule _ _ => false

def bodyFunctionFree : List Node → Bool
  | [] => true
  | bind _ _ _ value :: rest => isFunctionFree value && bodyFunctionFree rest
  | node :: rest => isFunctionFree node && bodyFunctionFree rest

end

theorem bodyFunctionFree_cons {node : Node} {rest : List Node} (declares : binds node = []) :
    bodyFunctionFree (node :: rest) = (isFunctionFree node && bodyFunctionFree rest) := by
  cases node with
  | bind => cases declares
  | _ =>
    rw [bodyFunctionFree]
    nofun

theorem bodyFunctionFree_of_cons {node : Node} {rest : List Node}
    (free : bodyFunctionFree (node :: rest) = true) : bodyFunctionFree rest = true := by
  cases node with
  | bind =>
    rw [bodyFunctionFree, Bool.and_eq_true] at free
    exact free.2
  | _ =>
    rw [bodyFunctionFree_cons rfl, Bool.and_eq_true] at free
    exact free.2

mutual

theorem steady_of_isFunctionFree {layers : Layers} (live : layers.live = true) :
    ∀ {node : Node}, node.isFunctionFree = true → node.allUses Layers.steady layers = true
  | literal _ _, _ | readFunction _ _, _ => by rw [allUses]
  | readVariable _ _, _ => by rw [allUses, Layers.steady_of_live live]
  | assign _ _ value, free => by
    rw [isFunctionFree] at free
    rw [allUses, steady_of_isFunctionFree live free, Layers.steady_of_live live, Bool.and_true]
  | unary _ _ value, free => by
    rw [isFunctionFree] at free
    rw [allUses, steady_of_isFunctionFree live free]
  | binary _ _ left right, free | logical _ _ left right, free => by
    rw [isFunctionFree, Bool.and_eq_true] at free
    rw [allUses, steady_of_isFunctionFree live free.1, steady_of_isFunctionFree live free.2,
      Bool.and_true]
  | block _ body, free => by
    rw [isFunctionFree] at free
    rw [allUses, steady_of_bodyFunctionFree live free]
  | loop _ condition body, free => by
    rw [isFunctionFree, Bool.and_eq_true] at free
    rw [allUses, steady_of_isFunctionFree live free.1, steady_of_bodyFunctionFree live free.2,
      Bool.and_true]
  | branch _ condition whenTrue whenFalse, free => by
    simp only [isFunctionFree, Bool.and_eq_true] at free
    rw [allUses, steady_of_isFunctionFree live free.1.1, steady_of_bodyFunctionFree live free.1.2,
      steady_of_bodyFunctionFree live free.2, Bool.and_true, Bool.and_true]
  | this _, free | get _ _ _, free | set _ _ _ _, free | call _ _ _, free | bind _ _ _ _, free
  | returns _ _, free | function _ _ _, free | native _ _, free | anonymous _ _ _, free
  | record _ _, free | openModule _ _, free | useModule _ _, free => by
    rw [isFunctionFree] at free
    cases free

theorem steady_of_bodyFunctionFree {outer : Layers} (live : outer.live = true) {now : Parameters} :
    ∀ {body : List Node}, bodyFunctionFree body = true →
      bodyUses Layers.steady now outer body = true
  | [], _ => by rw [bodyUses]
  | node :: rest, free => by
    by_cases declares : binds node = []
    · rw [bodyFunctionFree_cons declares, Bool.and_eq_true] at free
      rw [bodyUses_cons declares, steady_of_isFunctionFree (Layers.live_cons live) free.1,
        steady_of_bodyFunctionFree live free.2, Bool.and_true]
    · cases node with
      | bind tag mutability name value =>
        rw [bodyFunctionFree, Bool.and_eq_true] at free
        rw [bodyUses, steady_of_isFunctionFree (Layers.live_cons live) free.1,
          steady_of_bodyFunctionFree live free.2, Bool.and_true]
      | _ => exact absurd rfl declares

end

mutual

/-- Whether a node can only yield `Unit` where all variables of this type hold it. -/
def yieldsUnit : Node → Bool
  | literal _ .unit => true
  | readVariable tag _ => tag.type = .unit
  | assign _ _ value | bind _ _ _ value => yieldsUnit value
  | block _ body => endsInUnit true body
  | loop _ _ _ => true
  | branch _ _ whenTrue whenFalse => endsInUnit true whenTrue && endsInUnit true whenFalse
  | literal _ (.scalar _) | this _ | readFunction _ _ | get _ _ _ | set _ _ _ _ | call _ _ _
  | unary _ _ _ | binary _ _ _ _ | logical _ _ _ _ | returns _ _ | function _ _ _ | native _ _
  | anonymous _ _ _ | record _ _ | openModule _ _ | useModule _ _ => false

/-- Whether the last node of a body can only yield `Unit`; a body without nodes does if what comes
before it does. -/
def endsInUnit (before : Bool) : List Node → Bool
  | [] => before
  | node :: rest => endsInUnit (yieldsUnit node) rest

end

/-- Whether a declaration or an assignment of a variable of type `Unit` has a value that can only be
`Unit`. -/
def keepsUnit : Node → Bool
  | bind tag _ _ value | assign tag _ value => tag.type ≠ .unit || yieldsUnit value
  | _ => true

theorem yieldsUnit_of_bind {tag : Tag} {mutability : Mutability} {name : String} {value : Node}
    (keeps : (bind tag mutability name value).keepsUnit = true) (unit : tag.type = .unit) :
    value.yieldsUnit = true := by
  simpa [keepsUnit, unit] using keeps

theorem yieldsUnit_of_assign {tag : Tag} {name : String} {value : Node}
    (keeps : (assign tag name value).keepsUnit = true) (unit : tag.type = .unit) :
    value.yieldsUnit = true := by
  simpa [keepsUnit, unit] using keeps

/-- No node at any depth puts anything but `Unit` in a variable of this type. -/
def KeepsUnit (nodes : List Node) : Prop := ∀ node ∈ all nodes, node.keepsUnit = true

namespace KeepsUnit

variable {node : Node} {nodes rest first second : List Node}

theorem cons : KeepsUnit (node :: rest) ↔ KeepsUnit [node] ∧ KeepsUnit rest := forall_all_cons

theorem append : KeepsUnit (first ++ second) ↔ KeepsUnit first ∧ KeepsUnit second :=
  forall_all_append

theorem singleton : KeepsUnit [node] ↔ node.keepsUnit = true ∧ KeepsUnit node.parts :=
  forall_all_singleton

end KeepsUnit

end Node

end ScriptCore
