import ScriptCore.Ty.Basic

/-!
# Overloads

Functions of one name are told apart by an index, and an overload is a function type under
its indexed name. A call takes the first overload whose parameters accept the arguments
one by one and whose receiver is the receiver of the call.
-/
namespace ScriptCore

structure Overload where
  /-- The indexed name. -/
  name : String
  type : FnTy
  deriving DecidableEq

/-- The name of the overload with this index. -/
def overloadName (name : String) (index : Nat) : String := name ++ "-" ++ toString index

/-- Two lists of one length whose elements are related one by one. -/
def pairwise {α β : Type} (related : α → β → Bool) (as : List α) (bs : List β) : Bool :=
  as.length = bs.length && (as.zip bs).all fun ab => related ab.1 ab.2

theorem pairwise_iff_forall₂ {α β : Type} {related : α → β → Bool} {as : List α} {bs : List β} :
    pairwise related as bs = true ↔
      as.length = bs.length ∧ ∀ ab ∈ as.zip bs, related ab.1 ab.2 = true := by
  simp [pairwise]

/-- Whether a call with these argument types and this receiver fits the function. -/
def FnTy.acceptsCall (type : FnTy) (arguments : List Ty) (receiver : Option Ty) : Bool :=
  pairwise Ty.accepts (Parameters.types type.parameters) arguments && type.receiver = receiver

namespace Overload

/-- The first candidate that fits a call. -/
def firstMatch? (candidates : List Overload) (arguments : List Ty) (receiver : Option Ty) :
    Option Overload :=
  candidates.find? (·.type.acceptsCall arguments receiver)

theorem firstMatch?_mem {candidates : List Overload} {arguments : List Ty}
    {receiver : Option Ty} {overload : Overload}
    (h : firstMatch? candidates arguments receiver = some overload) : overload ∈ candidates :=
  List.mem_of_find?_eq_some h

end Overload

end ScriptCore
