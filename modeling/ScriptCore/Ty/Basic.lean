/-!
# Types

A type is a class type or a function type. Types are finite trees, and two types are the
same when their trees are: a class type has a name, fields and constructors, a function
type has parameters, a result and perhaps a receiver. A type accepts another when it is
`Any` or the same type (`Ty.accepts_iff`), so acceptance is a preorder.
-/
namespace ScriptCore

mutual

inductive Ty
  | cls (type : ClassTy)
  | fn (type : FnTy)

/-- A class type. The name is absent for an anonymous class, and each constructor is the
list of its parameters. -/
structure ClassTy where
  name : Option String
  fields : List (String × Ty)
  constructors : List (List (String × Ty))

/-- A function type. A receiver marks an extension function, which is called as a method
of the receiver's type. -/
structure FnTy where
  parameters : List (String × Ty)
  result : Ty
  receiver : Option Ty

end

/-- Names with their types, in the order of declaration. -/
abbrev Parameters := List (String × Ty)

section Equality

/-! Types share parts, so a comparison first asks whether both sides are one object. It stops
at the first difference, and it compares names and lengths before the types below them. -/

/-- Equality of lists, where lists of different lengths are told apart at once. -/
@[inline] private def decideByLength {α : Type} {as bs : List α}
    (elements : Unit → Decidable (as = bs)) : Decidable (as = bs) :=
  if h : as.length = bs.length then elements () else .isFalse fun e => h (by rw [e])

mutual

def Ty.decEq : (a b : Ty) → Decidable (a = b)
  | .cls a, .cls b =>
    match ClassTy.decEq a b with
    | .isTrue h => .isTrue (by rw [h])
    | .isFalse h => .isFalse fun e => h (Ty.cls.inj e)
  | .fn a, .fn b =>
    match FnTy.decEq a b with
    | .isTrue h => .isTrue (by rw [h])
    | .isFalse h => .isFalse fun e => h (Ty.fn.inj e)
  | .cls _, .fn _ => .isFalse nofun
  | .fn _, .cls _ => .isFalse nofun
termination_by structural a => a

def ClassTy.decEq (a b : ClassTy) : Decidable (a = b) :=
  withPtrEqDecEq a b fun _ =>
    match a, b with
    | ⟨name, fields, constructors⟩, ⟨name', fields', constructors'⟩ =>
      match decEq name name' with
      | .isFalse h => .isFalse fun e => h (ClassTy.mk.inj e).1
      | .isTrue hn =>
        match decideByLength fun _ => Parameters.decEq fields fields' with
        | .isFalse h => .isFalse fun e => h (ClassTy.mk.inj e).2.1
        | .isTrue hf =>
          match decideByLength fun _ =>
            ClassTy.decEqConstructors constructors constructors' with
          | .isFalse h => .isFalse fun e => h (ClassTy.mk.inj e).2.2
          | .isTrue hc => .isTrue (by rw [hn, hf, hc])
termination_by structural a

def ClassTy.decEqConstructors : (a b : List (List (String × Ty))) → Decidable (a = b)
  | [], [] => .isTrue rfl
  | [], _ :: _ => .isFalse nofun
  | _ :: _, [] => .isFalse nofun
  | a :: as, b :: bs =>
    match decideByLength fun _ => Parameters.decEq a b with
    | .isFalse h => .isFalse fun e => h (List.cons.inj e).1
    | .isTrue ha =>
      match ClassTy.decEqConstructors as bs with
      | .isFalse h => .isFalse fun e => h (List.cons.inj e).2
      | .isTrue hs => .isTrue (by rw [ha, hs])
termination_by structural a => a

def FnTy.decEq (a b : FnTy) : Decidable (a = b) :=
  withPtrEqDecEq a b fun _ =>
    match a, b with
    | ⟨parameters, result, receiver⟩, ⟨parameters', result', receiver'⟩ =>
      match decideByLength fun _ => Parameters.decEq parameters parameters' with
      | .isFalse h => .isFalse fun e => h (FnTy.mk.inj e).1
      | .isTrue hp =>
        match Ty.decEq result result' with
        | .isFalse h => .isFalse fun e => h (FnTy.mk.inj e).2.1
        | .isTrue hr =>
          match Ty.decEqOption receiver receiver' with
          | .isFalse h => .isFalse fun e => h (FnTy.mk.inj e).2.2
          | .isTrue hv => .isTrue (by rw [hp, hr, hv])
termination_by structural a

def Ty.decEqOption : (a b : Option Ty) → Decidable (a = b)
  | none, none => .isTrue rfl
  | none, some _ => .isFalse nofun
  | some _, none => .isFalse nofun
  | some a, some b =>
    match Ty.decEq a b with
    | .isTrue h => .isTrue (by rw [h])
    | .isFalse h => .isFalse fun e => h (Option.some.inj e)
termination_by structural a => a

def Parameters.decEq : (a b : List (String × Ty)) → Decidable (a = b)
  | [], [] => .isTrue rfl
  | [], _ :: _ => .isFalse nofun
  | _ :: _, [] => .isFalse nofun
  | (name, type) :: as, (name', type') :: bs =>
    match decEq name name' with
    | .isFalse h => .isFalse fun e => h (Prod.mk.inj (List.cons.inj e).1).1
    | .isTrue hn =>
      match Ty.decEq type type' with
      | .isFalse h => .isFalse fun e => h (Prod.mk.inj (List.cons.inj e).1).2
      | .isTrue ht =>
        match Parameters.decEq as bs with
        | .isFalse h => .isFalse fun e => h (List.cons.inj e).2
        | .isTrue hs => .isTrue (by rw [hn, ht, hs])
termination_by structural a => a

end

instance : DecidableEq Ty := Ty.decEq

instance : DecidableEq ClassTy := ClassTy.decEq

instance : DecidableEq FnTy := FnTy.decEq

end Equality

section Rendering

/-- The shown name of a class. -/
def shownClassName (name : Option String) : String := name.getD "<anonymous>"

mutual

/-- The text of a type: the name of a class, the signature of a function. -/
def Ty.render : Ty → String
  | .cls type => shownClassName type.name
  | .fn type => FnTy.render type

def FnTy.render : FnTy → String
  | ⟨parameters, result, none⟩ =>
    "(" ++ Parameters.render parameters ++ ") -> " ++ Ty.render result
  | ⟨parameters, result, some receiver⟩ =>
    Ty.render receiver ++ ".(" ++ Parameters.render parameters ++ ") -> " ++ Ty.render result

/-- Each name with its type, separated by commas. -/
def Parameters.render : List (String × Ty) → String
  | [] => ""
  | [(name, type)] => name ++ ": " ++ Ty.render type
  | (name, type) :: rest => name ++ ": " ++ Ty.render type ++ ", " ++ Parameters.render rest

end

def ClassTy.render (type : ClassTy) : String := shownClassName type.name

/-- The text of a type when it is inspected. -/
def Ty.inspect (type : Ty) : String := "Type(" ++ type.render ++ ")"

end Rendering

namespace ClassTy

/-- A class with neither fields nor constructors. -/
def bare (name : String) : ClassTy := ⟨some name, [], []⟩

/-- The type of each constructor: its parameters, with the class itself as the result. -/
def constructorTypes (type : ClassTy) : List FnTy :=
  type.constructors.map fun parameters => ⟨parameters, .cls type, none⟩

def any : ClassTy := bare "Any"

/-- A string is made from a value of any type. -/
def string : ClassTy := ⟨some "String", [], [[("any", .cls any)]]⟩

def int : ClassTy := bare "Int"

def double : ClassTy := bare "Double"

def boolean : ClassTy := bare "Boolean"

def unit : ClassTy := bare "Unit"

/-- The builtin classes, in the order in which a scope defines them. -/
def builtins : List ClassTy := [any, string, int, double, boolean, unit]

end ClassTy

namespace Ty

/-- The type that accepts every type. -/
def any : Ty := .cls .any

def string : Ty := .cls .string

def int : Ty := .cls .int

def double : Ty := .cls .double

def boolean : Ty := .cls .boolean

def unit : Ty := .cls .unit

def isAny (type : Ty) : Bool := type = any

def isNumber (type : Ty) : Bool := type = int || type = double

/-- Whether a value of type `source` may stand where `target` is expected. -/
def accepts (target source : Ty) : Bool := target.isAny || target = source

def asClass? : Ty → Option ClassTy
  | .cls type => some type
  | .fn _ => none

def asFunction? : Ty → Option FnTy
  | .fn type => some type
  | .cls _ => none

theorem accepts_iff {target source : Ty} :
    target.accepts source = true ↔ target = any ∨ target = source := by
  simp [accepts, isAny]

theorem accepts_refl (type : Ty) : type.accepts type = true := accepts_iff.mpr (.inr rfl)

theorem any_accepts (type : Ty) : any.accepts type = true := accepts_iff.mpr (.inl rfl)

theorem accepts_trans {a b c : Ty} (hab : a.accepts b = true) (hbc : b.accepts c = true) :
    a.accepts c = true := by
  rw [accepts_iff] at *
  rcases hab with h | h
  · exact .inl h
  · rcases hbc with h' | h'
    · exact .inl (h.trans h')
    · exact .inr (h.trans h')

end Ty

namespace Parameters

def types (parameters : Parameters) : List Ty := parameters.map Prod.snd

def names (parameters : Parameters) : List String := parameters.map Prod.fst

/-- The type of the first parameter of this name. -/
def get? (parameters : Parameters) (name : String) : Option Ty :=
  (parameters.find? (·.1 = name)).map Prod.snd

def contains (parameters : Parameters) (name : String) : Bool :=
  (Parameters.get? parameters name).isSome

end Parameters

end ScriptCore
