import ScriptCore.Ty.Layer

/-!
# Type tables

While types are being built they are shared: each has a place in a table and refers to other
types by their places. A constructor that is added to a class is seen through every such
reference. `same` takes one place to be one type at once and otherwise compares what the
table holds; `unfold` writes a place out as the tree that it stands for.

A class may refer to itself through a constructor added later. Such a class has no finite
tree, but it can be named, compared with itself and called.
-/
namespace ScriptCore

/-- The place of a type in a table. -/
abbrev Place := Nat

structure TypeTable where
  layers : Array (TyLayer Place)

namespace TypeTable

def any : Place := 0

def int : Place := 2

def double : Place := 3

/-- The table of the builtin classes alone. -/
def builtins : TypeTable :=
  ⟨#[.cls "Any" [] [], .cls "String" [] [[("any", any)]], .cls "Int" [] [],
    .cls "Double" [] [], .cls "Boolean" [] [], .cls "Unit" [] []]⟩

/-- The places of the builtin classes with their names. -/
def builtinPlaces : List (String × Place) := (ClassTy.builtins.map ClassTy.render).zipIdx

def layer? (table : TypeTable) (place : Place) : Option (TyLayer Place) := table.layers[place]?

/-- Add a type at the end of the table. -/
def add (table : TypeTable) (layer : TyLayer Place) : Place × TypeTable :=
  (table.layers.size, ⟨table.layers.push layer⟩)

/-- Add a constructor to the class at `place`. A function stays as it is. -/
def addConstructor (table : TypeTable) (place : Place) (parameters : List (String × Place)) :
    TypeTable :=
  ⟨table.layers.modify place fun layer =>
    match layer with
    | .cls name fields constructors => .cls name fields (constructors ++ [parameters])
    | .fn parameters result receiver => .fn parameters result receiver⟩

/-- Whether two places hold the same type, looking through at most `depth` layers. -/
def sameWithin (table : TypeTable) : (depth : Nat) → Place → Place → Bool
  | 0, a, b => a = b
  | depth + 1, a, b =>
    a = b ||
      match table.layer? a, table.layer? b with
      | some layer, some layer' => layer.sameBy (sameWithin table depth) layer'
      | _, _ => false

/-- A type that does not refer to itself is no deeper than the table is long. -/
def depth (table : TypeTable) : Nat := table.layers.size + 1

/-- Whether two places hold the same type. -/
def same (table : TypeTable) (a b : Place) : Bool := table.sameWithin table.depth a b

def isAny (table : TypeTable) (type : Place) : Bool := table.same type any

def isNumber (table : TypeTable) (type : Place) : Bool :=
  table.same type int || table.same type double

/-- Whether a value of type `source` may stand where `target` is expected. -/
def accepts (table : TypeTable) (target source : Place) : Bool :=
  table.isAny target || table.same target source

/-- Whether a call with these argument types and this receiver fits the function. -/
def acceptsCall (table : TypeTable) (function : Place) (arguments : List Place)
    (receiver : Option Place) : Bool :=
  match table.layer? function with
  | some (.fn parameters _ own) =>
    pairwise table.accepts (parameters.map Prod.snd) arguments &&
      TyLayer.sameReceiver table.same own receiver
  | _ => false

/-- The name of the first candidate that fits a call. -/
def firstMatch? (table : TypeTable) (candidates : List (String × Place))
    (arguments : List Place) (receiver : Option Place) : Option String :=
  (candidates.find? fun candidate => table.acceptsCall candidate.2 arguments receiver).map
    Prod.fst

/-- The tree of a place, looking through at most `depth` layers. -/
def unfoldWithin (table : TypeTable) : (depth : Nat) → Place → Ty
  | 0, _ => .unit
  | depth + 1, place =>
    match table.layer? place with
    | none => .unit
    | some layer => .ofLayer (layer.map (unfoldWithin table depth))

/-- The tree that a place stands for. -/
def unfold (table : TypeTable) (place : Place) : Ty := table.unfoldWithin table.depth place

/-- The text of a place, looking through at most `depth` functions. -/
def renderWithin (table : TypeTable) : (depth : Nat) → Place → String
  | 0, _ => ""
  | depth + 1, place =>
    match table.layer? place with
    | none => ""
    | some (.cls name _ _) => shownClassName name
    | some (.fn parameters result receiver) =>
      TyLayer.renderFunction (TyLayer.mapParameters (renderWithin table depth) parameters)
        (renderWithin table depth result) (receiver.map (renderWithin table depth))

/-- The text of a type. A function refers to earlier places alone, so the depth suffices. -/
def render (table : TypeTable) (place : Place) : String := table.renderWithin table.depth place

theorem layer?_addConstructor_of_ne (table : TypeTable) {place other : Place}
    (parameters : List (String × Place)) (h : place ≠ other) :
    (table.addConstructor place parameters).layer? other = table.layer? other := by
  simp [addConstructor, layer?, Array.getElem?_modify, h]

/-- The table's builtin classes stand for the builtin types. -/
theorem unfold_builtins :
    builtinPlaces.map (fun entry => builtins.unfold entry.2) = ClassTy.builtins.map Ty.cls := by
  rfl

end TypeTable

end ScriptCore
