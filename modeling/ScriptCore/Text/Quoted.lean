import ScriptCore.Text.Unprintable
import ScriptCore.Text.GraphemeExtend

/-!
# Quoted strings

`quote` writes a string between double quotes so that every character can be seen: a few
have short escapes, and a character without a form of its own is written by its code point.
A single quote stands for itself.
-/
namespace ScriptCore.Text

def hexDigit (n : Nat) : Char :=
  Char.ofNat (if n < 10 then '0'.toNat + n else 'a'.toNat + (n - 10))

/-- The digits of `n` in base 16, in lower case and without leading zeros. -/
def hexDigits (n : Nat) : List Char :=
  if n < 16 then [hexDigit n] else hexDigits (n / 16) ++ [hexDigit (n % 16)]
termination_by n

/-- The code point of `c` between braces, after a backslash and the letter u. -/
def codePointEscape (c : Char) : List Char :=
  ['\\', 'u', '\x7b'] ++ hexDigits c.toNat ++ ['\x7d']

def escapeChar (c : Char) : List Char :=
  match c with
  | '\x00' => ['\\', '0']
  | '\t' => ['\\', 't']
  | '\r' => ['\\', 'r']
  | '\n' => ['\\', 'n']
  | '"' => ['\\', '"']
  | '\\' => ['\\', '\\']
  | c =>
    if ' ' ≤ c ∧ c ≤ '~' then [c]
    else if isGraphemeExtend c || isUnprintable c then codePointEscape c
    else [c]

def quote (s : String) : String :=
  "\"" ++ String.ofList (s.toList.flatMap escapeChar) ++ "\""

end ScriptCore.Text
