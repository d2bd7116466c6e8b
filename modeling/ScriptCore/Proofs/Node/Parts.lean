import ScriptCore.Node.Basic

/-!
# The nodes of a program

`Node.all` lists the nodes of a body at every depth, the bodies of functions included. What a
program declares is read off that list.
-/
namespace ScriptCore.Node

mutual

/-- The nodes below a node, at every depth. -/
def inside : Node → List Node
  | literal _ _ | this _ | readVariable _ _ | readFunction _ _ | native _ _ | record _ _
  | openModule _ _ | useModule _ _ => []
  | get _ receiver _ => receiver :: inside receiver
  | set _ receiver _ value => receiver :: inside receiver ++ value :: inside value
  | call _ callee arguments => callee :: inside callee ++ allArguments arguments
  | unary _ _ right => right :: inside right
  | binary _ _ left right | logical _ _ left right =>
    left :: inside left ++ right :: inside right
  | bind _ _ _ value | assign _ _ value | returns _ value => value :: inside value
  | block _ body | function _ _ body | anonymous _ _ body => all body
  | loop _ condition body => condition :: inside condition ++ all body
  | branch _ condition whenTrue whenFalse =>
    condition :: inside condition ++ all whenTrue ++ all whenFalse

/-- The nodes of a body, at every depth. -/
def all : List Node → List Node
  | [] => []
  | node :: rest => node :: inside node ++ all rest

def allArguments : List (String × Node) → List Node
  | [] => []
  | (_, value) :: rest => value :: inside value ++ allArguments rest

end

theorem mem_all {node : Node} {body : List Node} :
    node ∈ all body ↔ ∃ top ∈ body, node = top ∨ node ∈ inside top := by
  induction body with
  | nil => simp [all]
  | cons top rest ih => simp [all, ih, or_assoc]

theorem all_append (first second : List Node) : all (first ++ second) = all first ++ all second := by
  induction first with
  | nil => simp [all]
  | cons node rest ih => simp [all, ih]

theorem allArguments_eq (arguments : List (String × Node)) :
    allArguments arguments = all (arguments.map Prod.snd) := by
  induction arguments with
  | nil => rfl
  | cons argument rest ih => simp [allArguments, all, ih]

/-- The nodes directly below a node, in the order of the source. -/
def parts : Node → List Node
  | literal _ _ | this _ | readVariable _ _ | readFunction _ _ | native _ _ | record _ _
  | openModule _ _ | useModule _ _ => []
  | get _ receiver _ => [receiver]
  | set _ receiver _ value => [receiver, value]
  | call _ callee arguments => callee :: arguments.map Prod.snd
  | unary _ _ right => [right]
  | binary _ _ left right | logical _ _ left right => [left, right]
  | bind _ _ _ value | assign _ _ value | returns _ value => [value]
  | block _ body | function _ _ body | anonymous _ _ body => body
  | loop _ condition body => condition :: body
  | branch _ condition whenTrue whenFalse => condition :: (whenTrue ++ whenFalse)

theorem inside_eq (node : Node) : inside node = all (parts node) := by
  cases node <;> simp [inside, parts, all, all_append, allArguments_eq]

theorem sizeOf_lt_of_mem_parts {node part : Node} (h : part ∈ parts node) :
    sizeOf part < sizeOf node := by
  have body {nodes : List Node} (mem : part ∈ nodes) : sizeOf part < sizeOf nodes :=
    List.sizeOf_lt_of_mem mem
  have argument {arguments : List (String × Node)} (mem : part ∈ arguments.map Prod.snd) :
      sizeOf part < sizeOf arguments := by
    obtain ⟨⟨name, value⟩, there, rfl⟩ := List.mem_map.mp mem
    have smaller := List.sizeOf_lt_of_mem there
    simp only [Prod.mk.sizeOf_spec] at smaller ⊢
    omega
  cases node <;>
    simp only [parts, List.mem_cons, List.mem_append, List.not_mem_nil, or_false] at h
  case get | unary | bind | assign | returns =>
    simp only [get.sizeOf_spec, unary.sizeOf_spec, bind.sizeOf_spec, assign.sizeOf_spec,
      returns.sizeOf_spec]
    subst h
    omega
  case set | binary | logical =>
    simp only [set.sizeOf_spec, binary.sizeOf_spec, logical.sizeOf_spec]
    rcases h with rfl | rfl
    all_goals omega
  case call =>
    rw [call.sizeOf_spec]
    rcases h with rfl | h
    · omega
    · have := argument h
      omega
  case block | function | anonymous =>
    simp only [block.sizeOf_spec, function.sizeOf_spec, anonymous.sizeOf_spec]
    have := body h
    omega
  case loop =>
    rw [loop.sizeOf_spec]
    rcases h with rfl | h
    · omega
    · have := body h
      omega
  case branch =>
    rw [branch.sizeOf_spec]
    rcases h with rfl | h | h
    · omega
    · have := body h
      omega
    · have := body h
      omega

/-- Induction over the nodes of a program: what passes from the parts of a node to the node holds
of every node. -/
theorem induction_parts {P : Node → Prop} (h : ∀ node, (∀ part ∈ parts node, P part) → P node)
    (node : Node) : P node :=
  h node fun part mem =>
    have := sizeOf_lt_of_mem_parts mem
    induction_parts h part
termination_by sizeOf node

/-- What passes from nodes to their parts holds at every depth. -/
theorem forall_mem_all {P : Node → Prop} (below : ∀ node, P node → ∀ part ∈ parts node, P part)
    {body : List Node} (top : ∀ node ∈ body, P node) : ∀ node ∈ all body, P node := by
  have inner : ∀ node, P node → ∀ part ∈ inside node, P part := by
    refine induction_parts fun node ih holds part mem => ?_
    rw [inside_eq, mem_all] at mem
    obtain ⟨between, there, rfl | deeper⟩ := mem
    · exact below node holds _ there
    · exact ih between there (below node holds between there) part deeper
  intro node mem
  obtain ⟨between, there, rfl | deeper⟩ := mem_all.mp mem
  · exact top _ there
  · exact inner between (top between there) node deeper

section Everywhere

variable {P : Node → Prop} {node : Node} {body first second rest : List Node}

theorem forall_all_append :
    (∀ below ∈ all (first ++ second), P below) ↔
      (∀ below ∈ all first, P below) ∧ ∀ below ∈ all second, P below := by
  rw [all_append, List.forall_mem_append]

theorem forall_all_cons :
    (∀ below ∈ all (node :: rest), P below) ↔
      (∀ below ∈ all [node], P below) ∧ ∀ below ∈ all rest, P below :=
  @forall_all_append P [node] rest

/-- A property holds at every depth of a node if it holds of the node and at every depth of its
parts. -/
theorem forall_all_singleton :
    (∀ below ∈ all [node], P below) ↔ P node ∧ ∀ below ∈ all node.parts, P below := by
  simp only [all, inside_eq, List.append_nil, List.forall_mem_cons]

theorem forall_all_of_mem (holds : ∀ below ∈ all body, P below) (mem : node ∈ body) :
    ∀ below ∈ all [node], P below := by
  intro below there
  rw [mem_all] at there
  obtain ⟨top, same, inner⟩ := there
  obtain rfl := List.mem_singleton.mp same
  exact holds below (mem_all.mpr ⟨top, mem, inner⟩)

end Everywhere

/-- The type of the value of a body is that of one of its nodes. -/
theorem exists_of_valueType? {body : List Node} {type : Ty} (h : valueType? body = some type) :
    ∃ last ∈ body, last.type = type := by
  simp only [valueType?] at h
  split at h
  · cases h
  · rename_i last found
    have mem := List.mem_of_getLast? found
    split at h
    all_goals first
      | exact ⟨_, mem, Option.some.inj h⟩
      | cases h

/-- The last node of a body gives the value of the body. -/
theorem type_of_valueType? {body : List Node} {node : Node} {type : Ty} (last : [node] <:+ body)
    (found : valueType? body = some type) : node.type = type := by
  obtain ⟨front, rfl⟩ := last
  simp only [valueType?, List.getLast?_append, List.getLast?_singleton, Option.some_or] at found
  split at found
  all_goals first
    | exact Option.some.inj found
    | cases found

/-- The variables that a node itself declares: a binding its own, a function its parameters. -/
def ownVariables : Node → Parameters
  | bind tag _ name _ => [(name, tag.type)]
  | function _ header _ => header.type.parameters
  | anonymous _ header _ => header.type.parameters
  | _ => []

/-- The function that a node itself declares, under its indexed name. -/
def ownFunctions : Node → List (String × FnTy)
  | function _ header _ => [(header.name, header.type)]
  | native _ header => [(header.name, header.type)]
  | _ => []

end ScriptCore.Node
