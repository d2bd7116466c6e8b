import ScriptCore.Machine
import ScriptCore.Node.Dump

/-!
# Probes

Native functions that tell a host what a native function can see: its call, its arguments
and the scope it runs in. Two of them stop evaluation instead, one by a return and one by
an error.
-/
namespace ScriptCore.Native

/-- The first argument, or the unit value. -/
def firstOrUnit (arguments : Arguments) : Value := (Arguments.first? arguments).getD .unit

/-- Give back the first argument. -/
def echo : NativeFn := fun _ arguments _ => return firstOrUnit arguments

/-- The number of arguments. -/
def argumentCount : NativeFn := fun _ arguments _ =>
  return .int (Int64.ofInt arguments.length)

/-- The call with its line and its type. -/
def site : NativeFn := fun node _ _ =>
  return .string (node.render ++ " at " ++ node.line.text ++ ": " ++ node.type.render)

/-- The variable that the first argument names. Without a name it looks for `?`. -/
def peek : NativeFn := fun _ arguments env =>
  Eval.lookup env (((Arguments.first? arguments).bind Value.asString?).getD "?")

/-- The call sites around the function. -/
def trace : NativeFn := fun _ _ env m =>
  (.ok (.string (Backtrace.render (m.store.backtrace env))), m)

/-- Return the first argument, as a statement would. -/
def bail : NativeFn := fun _ arguments _ => Attempt.fail (.returned (firstOrUnit arguments))

/-- Fail, with the text of the first argument as what is not supported. -/
def refuse : NativeFn := fun _ arguments _ =>
  Eval.fault (.unsupported (Arguments.firstDisplay arguments))

/-- Every probe under its name. -/
def probes : List (String × NativeFn) :=
  [("echo", echo), ("argc", argumentCount), ("site", site), ("peek", peek), ("trace", trace),
    ("bail", bail), ("fail", refuse)]

/-- The probe of this name. -/
def probe? (name : String) : Option NativeFn := Table.lookup probes name

end ScriptCore.Native
