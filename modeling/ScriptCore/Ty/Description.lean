import ScriptCore.Ty.TypeTable

/-!
# Descriptions of types

A description says in texts what can be asked of a type: how it is shown, whether it is
`Any` or a number, and what it is made of. Types and places of a type table are described
alike.
-/
namespace ScriptCore

/-- Names with the texts of their types. -/
abbrev ShownParameters := List (String × String)

inductive TyShape
  | cls (name : Option String) (fields : ShownParameters) (constructors : List String)
  | fn (parameters : ShownParameters) (result : String) (receiver : Option String)
  deriving DecidableEq

structure TyDescription where
  text : String
  isAny : Bool
  isNumber : Bool
  shape : TyShape
  deriving DecidableEq

namespace TyDescription

/-- The text of a type when it is inspected. -/
def inspect (d : TyDescription) : String := "Type(" ++ d.text ++ ")"

end TyDescription

/-- The shape of a type from the texts of the types below it. A constructor is shown as a
function to the class. -/
def TyLayer.shape : TyLayer String → TyShape
  | .cls name fields constructors =>
    .cls name fields (constructors.map fun parameters =>
      renderFunction parameters (shownClassName name) none)
  | .fn parameters result receiver => .fn parameters result receiver

def Ty.describe (type : Ty) : TyDescription :=
  ⟨type.render, type.isAny, type.isNumber, (type.layer.map render).shape⟩

namespace TypeTable

def describe (table : TypeTable) (place : Place) : TyDescription :=
  let shape : TyShape := match table.layer? place with
    | some layer => (layer.map table.render).shape
    | none => .cls none [] []
  ⟨table.render place, table.isAny place, table.isNumber place, shape⟩

/-- The text of parameters whose types are places. -/
def renderParameters (table : TypeTable) (parameters : List (String × Place)) : String :=
  TyLayer.renderParameters (TyLayer.mapParameters table.render parameters)

end TypeTable

end ScriptCore
