import ScriptCore.Proofs.Eval.Encapsulation
import ScriptCore.Proofs.Lowering.Statements
import ScriptCore.Proofs.Node.Layers

/-!
# Bodies that declare each name once

A node opens scopes of its own for the bodies in it, and an invocation one for the parameters and
the body of the function. A body is tidy if in none of these scopes, at any depth, a name is
declared twice, and if variables are declared by statements alone.
-/
namespace ScriptCore.Node

/-- The names of the variables that the nodes of a body declare in one scope. -/
def boundNames (body : List Node) : List String := Parameters.names (bindsOf body)

/-- The names that are declared in each of the scopes that are opened for the bodies in a node. The
parameters of a function are declared in the scope of its body. -/
def ownScopes : Node → List (List String)
  | block _ body | loop _ _ body => [boundNames body]
  | branch _ _ whenTrue whenFalse => [boundNames whenTrue, boundNames whenFalse]
  | function _ header body => [Parameters.names header.type.parameters ++ boundNames body]
  | anonymous _ header body => [Parameters.names header.type.parameters ++ boundNames body]
  | _ => []

structure Tidy (body : List Node) : Prop where
  plain : Plain body
  distinct : ∀ node ∈ all body, ∀ names ∈ node.ownScopes, names.Nodup

variable {node : Node} {body first second rest : List Node} {name : String}

theorem boundNames_cons (node : Node) (rest : List Node) :
    boundNames (node :: rest) = boundNames [node] ++ boundNames rest := by
  simp [boundNames, bindsOf, Parameters.names]

theorem boundNames_append (first second : List Node) :
    boundNames (first ++ second) = boundNames first ++ boundNames second := by
  simp [boundNames, bindsOf, Parameters.names]

theorem nodup_boundNames_suffix (distinct : (boundNames body).Nodup) (suffix : rest <:+ body) :
    (boundNames rest).Nodup := by
  obtain ⟨front, rfl⟩ := suffix
  rw [boundNames_append] at distinct
  exact (List.nodup_append.mp distinct).2.1

theorem boundNames_of_expression (expression : node.isStatement = false) :
    boundNames [node] = [] := by
  cases node with
  | bind => cases expression
  | _ => rfl

theorem tidy_append : Tidy (first ++ second) ↔ Tidy first ∧ Tidy second := by
  constructor
  · rintro ⟨plain, distinct⟩
    have before := plain_append.mp plain
    have own := forall_all_append.mp distinct
    exact ⟨⟨before.1, own.1⟩, before.2, own.2⟩
  · rintro ⟨before, behind⟩
    exact ⟨plain_append.mpr ⟨before.plain, behind.plain⟩,
      forall_all_append.mpr ⟨before.distinct, behind.distinct⟩⟩

theorem Tidy.of_mem (tidy : Tidy body) (mem : node ∈ body) : Tidy [node] :=
  ⟨tidy.plain.of_mem mem, forall_all_of_mem tidy.distinct mem⟩

/-- The bodies in a node, together with its operands. -/
theorem Tidy.parts (tidy : Tidy [node]) : Tidy node.parts :=
  ⟨(plain_singleton.mp tidy.plain).2, (forall_all_singleton.mp tidy.distinct).2⟩

theorem Tidy.own (tidy : Tidy [node]) : ∀ names ∈ node.ownScopes, names.Nodup :=
  (forall_all_singleton.mp tidy.distinct).1

theorem Tidy.operand (tidy : Tidy [node]) {operand : Node} (mem : operand ∈ node.operands) :
    Tidy [operand] ∧ operand.isStatement = false :=
  ⟨tidy.parts.of_mem (operands_subset_parts node mem), (tidy.plain.operand mem).2⟩

/-- A variable that a node adds to its scope is its own, or one of its operands adds it. -/
theorem exists_of_var_mem_additions (mem : .var name ∈ node.additions) :
    name ∈ boundNames [node] ∨ ∃ operand ∈ node.operands, .var name ∈ operand.additions := by
  have argument {arguments : List (String × Node)} (mem : .var name ∈ argumentAdditions arguments) :
      ∃ operand ∈ arguments.map Prod.snd, .var name ∈ operand.additions := by
    induction arguments with
    | nil => cases mem
    | cons first rest ih =>
      rw [argumentAdditions, List.mem_append] at mem
      rcases mem with here | later
      · exact ⟨first.2, List.mem_cons_self, here⟩
      · obtain ⟨operand, there, added⟩ := ih later
        exact ⟨operand, List.mem_cons_of_mem _ there, added⟩
  cases node with
  | bind tag mutability bound value =>
    rw [additions, List.mem_cons] at mem
    rcases mem with same | below
    · cases same
      exact .inl List.mem_cons_self
    · exact .inr ⟨value, List.mem_cons_self, below⟩
  | call tag callee arguments =>
    rw [additions, List.mem_append] at mem
    rcases mem with here | later
    · exact .inr ⟨callee, List.mem_cons_self, here⟩
    · obtain ⟨operand, there, added⟩ := argument later
      exact .inr ⟨operand, List.mem_cons_of_mem _ there, added⟩
  | unary | assign | returns | loop | branch =>
    rw [additions] at mem
    exact .inr ⟨_, List.mem_cons_self, mem⟩
  | binary | logical =>
    rw [additions, List.mem_append] at mem
    rcases mem with here | later
    · exact .inr ⟨_, List.mem_cons_self, here⟩
    · exact .inr ⟨_, List.mem_cons_of_mem _ List.mem_cons_self, later⟩
  | function | native | useModule =>
    rw [additions, List.mem_singleton] at mem
    cases mem
  | _ => cases mem

/-- A node adds no variables to its scope but the one that it declares as a statement. -/
theorem Plain.of_var_mem_additions (plain : Plain [node]) (mem : .var name ∈ node.additions) :
    name ∈ boundNames [node] := by
  induction node using induction_parts with
  | h node ih =>
    rcases exists_of_var_mem_additions mem with own | ⟨operand, there, added⟩
    · exact own
    · obtain ⟨below, expression⟩ := plain.operand there
      have bound := ih operand (operands_subset_parts node there) below added
      rw [boundNames_of_expression expression] at bound
      cases bound

/-- The nodes of a body add no other variables than those that the body declares. -/
theorem Plain.mem_boundNames (plain : Plain body) (mem : .var name ∈ body.flatMap additions) :
    name ∈ boundNames body := by
  induction body with
  | nil => cases mem
  | cons node rest ih =>
    obtain ⟨head, tail⟩ := plain_cons.mp plain
    rw [List.flatMap_cons, List.mem_append] at mem
    rw [boundNames_cons, List.mem_append]
    exact mem.imp head.of_var_mem_additions (ih tail)

end ScriptCore.Node
