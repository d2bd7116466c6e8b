/-!
# Output

Printed text goes to a buffer, which keeps all of it, or to a silent sink, which keeps none.
-/
namespace ScriptCore

inductive Output
  | buffer (text : String)
  | silent
  deriving DecidableEq

namespace Output

/-- A buffer that holds nothing. -/
def fresh : Output := buffer ""

def print (output : Output) (text : String) : Output :=
  match output with
  | buffer held => buffer (held ++ text)
  | silent => silent

/-- Print a text and a line end. -/
def printLine (output : Output) (text : String) : Output := (output.print text).print "\n"

/-- Everything printed since the last `clear`. -/
def text : Output → String
  | buffer held => held
  | silent => ""

def clear : Output → Output
  | buffer _ => buffer ""
  | silent => silent

end Output

end ScriptCore
