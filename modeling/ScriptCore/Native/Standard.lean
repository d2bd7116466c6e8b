import ScriptCore.Machine

/-!
# Standard native functions

The one function that every host supplies is `println`.
-/
namespace ScriptCore.Native

/-- Print the text of the first argument, or an empty line without one. -/
def println : NativeFn := fun _ arguments _ => do
  Eval.printLine (Arguments.firstDisplay arguments)
  return .unit

/-- No native functions at all. -/
def empty : Table NativeFn := .empty

def standard : Table NativeFn := empty.insert "println" println

theorem eq_println_of_standard {name : String} {native : NativeFn}
    (supplied : standard.get? name = some native) : native = println := by
  rw [standard, Table.get?_insert] at supplied
  split at supplied
  · exact (Option.some.inj supplied).symm
  · cases supplied

/-- Add functions one after the other; a later one replaces an earlier one of its name. -/
def register (known : Table NativeFn) (functions : List (String × NativeFn)) : Table NativeFn :=
  functions.foldl (fun known function => known.insert function.1 function.2) known

end ScriptCore.Native
