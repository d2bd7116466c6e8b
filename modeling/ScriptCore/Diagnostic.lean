import ScriptCore.Line

/-!
# Diagnostics

A diagnostic is an error, a warning or a note with a code, a message, perhaps a line and
any number of notes. Codes are numbered by the phase that reports them: lowering from 2001,
evaluation from 6001, and 9001 for a return that nothing catches.
-/
namespace ScriptCore

inductive Code
  | unresolvedVariable | unresolvedFunction | unresolvedParameter | unexpectedType
  | missingReturn | alreadyResolved | classMissingName
  | undefinedVariable | undefinedFunction | alreadyDeclared | reassignedImmutable
  | invalidType | bodyWithoutReturn | undefinedModule | moduleOutsideGlobal
  | invalidOperands | unsupported | mainNotFound | mainNotInt
  | uncaughtReturn
  deriving DecidableEq

namespace Code

def number : Code → Nat
  | unresolvedVariable => 2001
  | unresolvedFunction => 2002
  | unresolvedParameter => 2003
  | unexpectedType => 2004
  | missingReturn => 2005
  | alreadyResolved => 2006
  | classMissingName => 2007
  | undefinedVariable => 6001
  | undefinedFunction => 6002
  | alreadyDeclared => 6003
  | reassignedImmutable => 6004
  | invalidType => 6005
  | bodyWithoutReturn => 6006
  | undefinedModule => 6007
  | moduleOutsideGlobal => 6008
  | invalidOperands => 6009
  | unsupported => 6010
  | mainNotFound => 6011
  | mainNotInt => 6012
  | uncaughtReturn => 9001

def text (code : Code) : String := "E" ++ toString code.number

/-- Reported while a unit is lowered. -/
def isCompileError (code : Code) : Bool := code.number / 1000 = 2

/-- Reported while a program runs. -/
def isRuntimeError (code : Code) : Bool := code.number / 1000 = 6

/-- Every code, by number. -/
def all : List Code :=
  [unresolvedVariable, unresolvedFunction, unresolvedParameter, unexpectedType, missingReturn,
    alreadyResolved, classMissingName, undefinedVariable, undefinedFunction, alreadyDeclared,
    reassignedImmutable, invalidType, bodyWithoutReturn, undefinedModule, moduleOutsideGlobal,
    invalidOperands, unsupported, mainNotFound, mainNotInt, uncaughtReturn]

def ofText? (text : String) : Option Code := all.find? (·.text = text)

end Code

inductive Severity
  | error | warning | note
  deriving DecidableEq

def Severity.text : Severity → String
  | error => "error"
  | warning => "warning"
  | note => "note"

structure Diagnostic where
  code : Code
  severity : Severity
  message : String
  line : Option Line
  notes : List String
  deriving DecidableEq

namespace Diagnostic

/-- A diagnostic that says nothing yet. -/
def ofSeverity (severity : Severity) (code : Code) : Diagnostic := ⟨code, severity, "", none, []⟩

def error (code : Code) : Diagnostic := ofSeverity .error code

def withMessage (d : Diagnostic) (message : String) : Diagnostic := { d with message := message }

/-- Set the line; a synthetic line leaves the diagnostic as it is. -/
def atLine (d : Diagnostic) (line : Line) : Diagnostic :=
  if line.isSynthetic then d else { d with line := some line }

def withNote (d : Diagnostic) (note : String) : Diagnostic :=
  { d with notes := d.notes ++ [note] }

def isError (d : Diagnostic) : Bool := d.severity = .error

/-- The code and the message, then the line and the notes on lines of their own. -/
def render (d : Diagnostic) : String :=
  d.severity.text ++ "[" ++ d.code.text ++ "]: " ++ d.message ++
    (match d.line with
      | none => ""
      | some line => "\n  --> " ++ line.text) ++
    String.join (d.notes.map ("\n  = note: " ++ ·))

end Diagnostic

end ScriptCore
