import ScriptCore.Node.Basic

/-!
# First-order nodes

A program is of first order if its functions are declared as statements and are only ever called
by their names, so that no function is a value. It has no modules, no records and no anonymous
functions, `println` is the one function of the host, and `this` stands in extension functions
alone.
-/
namespace ScriptCore.Node

/-- Where a node stands. -/
inductive Position
  | statement
  | value
  | callee
  deriving DecidableEq

mutual

/-- Whether a node at this position is of first order. `hosts` tells whether the function of the
host may be declared where a value is needed, and `inside` whether an extension function is
around. -/
def isFirstOrder (hosts inside : Bool) (position : Position) : Node → Bool
  | literal _ _ | readVariable _ _ => true
  | this _ => inside
  | readFunction _ _ => position = .callee
  | get _ receiver _ => isFirstOrder hosts inside .value receiver
  | set _ receiver _ value =>
    isFirstOrder hosts inside .value receiver && isFirstOrder hosts inside .value value
  | call _ callee arguments =>
    isFirstOrder hosts inside .callee callee && argumentsFirstOrder hosts inside arguments
  | unary _ _ right => isFirstOrder hosts inside .value right
  | binary _ _ left right | logical _ _ left right =>
    isFirstOrder hosts inside .value left && isFirstOrder hosts inside .value right
  | bind _ _ _ value | assign _ _ value | returns _ value =>
    isFirstOrder hosts inside .value value
  | block _ body => bodyFirstOrder hosts inside body
  | loop _ condition body =>
    isFirstOrder hosts inside .value condition && bodyFirstOrder hosts inside body
  | branch _ condition whenTrue whenFalse =>
    isFirstOrder hosts inside .value condition && bodyFirstOrder hosts inside whenTrue &&
      bodyFirstOrder hosts inside whenFalse
  | function _ header body =>
    position = .statement && bodyFirstOrder hosts (inside || header.type.receiver.isSome) body
  | native _ header => (hosts || position = .statement) && header.hostName = "println"
  | anonymous _ _ _ | record _ _ | openModule _ _ | useModule _ _ => false

/-- Whether the statements of a body are of first order. -/
def bodyFirstOrder (hosts inside : Bool) : List Node → Bool
  | [] => true
  | node :: rest => isFirstOrder hosts inside .statement node && bodyFirstOrder hosts inside rest

/-- Whether the values of arguments are of first order. -/
def argumentsFirstOrder (hosts inside : Bool) : List (String × Node) → Bool
  | [] => true
  | (_, value) :: rest =>
    isFirstOrder hosts inside .value value && argumentsFirstOrder hosts inside rest

end

/-- Statements of first order, where no extension function is around. -/
def FirstOrder (hosts : Bool) (nodes : List Node) : Prop :=
  ∀ node ∈ nodes, node.isFirstOrder hosts false .statement = true

instance (hosts : Bool) (nodes : List Node) : Decidable (FirstOrder hosts nodes) :=
  inferInstanceAs (Decidable (∀ node ∈ nodes, node.isFirstOrder hosts false .statement = true))

variable {hosts inside : Bool}

theorem bodyFirstOrder_iff {body : List Node} :
    bodyFirstOrder hosts inside body = true ↔
      ∀ node ∈ body, isFirstOrder hosts inside .statement node = true := by
  induction body with
  | nil => simp [bodyFirstOrder]
  | cons node rest ih => simp [bodyFirstOrder, ih]

theorem argumentsFirstOrder_iff {arguments : List (String × Node)} :
    argumentsFirstOrder hosts inside arguments = true ↔
      ∀ argument ∈ arguments, isFirstOrder hosts inside .value argument.2 = true := by
  induction arguments with
  | nil => simp [argumentsFirstOrder]
  | cons argument rest ih => simp [argumentsFirstOrder, ih]

end ScriptCore.Node
