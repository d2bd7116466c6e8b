import ScriptCore.Ty.Overload

/-!
# Layers of types

A layer is what one type is made of, over any way of referring to the types below it: types
themselves, places of a table, or texts. Comparing, showing and building a type are said for
one layer here, and `Ty.ofLayer` and `Ty.layer` take types apart and put them together.
-/
namespace ScriptCore

inductive TyLayer (τ : Type)
  /-- A class: its name, its fields, and the parameters of each constructor. -/
  | cls (name : Option String) (fields : List (String × τ))
    (constructors : List (List (String × τ)))
  | fn (parameters : List (String × τ)) (result : τ) (receiver : Option τ)
  deriving DecidableEq

namespace TyLayer

variable {α β τ : Type}

def mapParameters (f : α → β) (parameters : List (String × α)) : List (String × β) :=
  parameters.map fun parameter => (parameter.1, f parameter.2)

/-- Replace every type below the layer. -/
def map (f : α → β) : TyLayer α → TyLayer β
  | cls name fields constructors =>
    cls name (mapParameters f fields) (constructors.map (mapParameters f))
  | fn parameters result receiver =>
    fn (mapParameters f parameters) (f result) (receiver.map f)

/-- Equality of parameters over an equality of types. -/
def sameParameters (same : τ → τ → Bool) : (as bs : List (String × τ)) → Bool :=
  pairwise fun a b => a.1 = b.1 && same a.2 b.2

/-- Equality of receivers over an equality of types. -/
def sameReceiver (same : τ → τ → Bool) : Option τ → Option τ → Bool
  | none, none => true
  | some a, some b => same a b
  | _, _ => false

/-- Equality of layers over an equality of the types below them. -/
def sameBy (same : τ → τ → Bool) : TyLayer τ → TyLayer τ → Bool
  | cls name fields constructors, cls name' fields' constructors' =>
    name = name' && sameParameters same fields fields' &&
      pairwise (sameParameters same) constructors constructors'
  | fn parameters result receiver, fn parameters' result' receiver' =>
    sameParameters same parameters parameters' && same result result' &&
      sameReceiver same receiver receiver'
  | _, _ => false

/-- The text of parameters: each name with its type, separated by commas. -/
def renderParameters (parameters : List (String × String)) : String :=
  ", ".intercalate (parameters.map fun parameter => parameter.1 ++ ": " ++ parameter.2)

/-- The text of a function from the texts of the types below it. -/
def renderFunction (parameters : List (String × String)) (result : String)
    (receiver : Option String) : String :=
  let signature := "(" ++ renderParameters parameters ++ ") -> " ++ result
  match receiver with
  | none => signature
  | some receiver => receiver ++ "." ++ signature

end TyLayer

namespace Ty

/-- The type that is made of these types. -/
def ofLayer : TyLayer Ty → Ty
  | .cls name fields constructors => .cls ⟨name, fields, constructors⟩
  | .fn parameters result receiver => .fn ⟨parameters, result, receiver⟩

/-- What a type is made of. -/
def layer : Ty → TyLayer Ty
  | .cls ⟨name, fields, constructors⟩ => .cls name fields constructors
  | .fn ⟨parameters, result, receiver⟩ => .fn parameters result receiver

@[simp] theorem ofLayer_layer (type : Ty) : ofLayer type.layer = type := by
  rcases type with ⟨⟨_, _, _⟩⟩ | ⟨⟨_, _, _⟩⟩ <;> rfl

@[simp] theorem layer_ofLayer (layer : TyLayer Ty) : (ofLayer layer).layer = layer := by
  cases layer <;> rfl

end Ty

end ScriptCore
