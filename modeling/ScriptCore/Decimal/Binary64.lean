/-!
# Doubles as exact numbers

`Binary64.ofFloat` reads the bits of a double: a finite one is its sign and
`mantissa * 2 ^ exponent`, without rounding.
-/
namespace ScriptCore.Decimal

inductive Binary64
  | nan
  | infinite (negative : Bool)
  | finite (negative : Bool) (mantissa : Nat) (exponent : Int)
  deriving DecidableEq

namespace Binary64

def ofBits (bits : Nat) : Binary64 :=
  let negative := bits / Nat.pow 2 63 % 2 = 1
  let fraction := bits % Nat.pow 2 52
  match bits / Nat.pow 2 52 % Nat.pow 2 11 with
  | 0 => .finite negative fraction (-1074)
  | biased =>
    if biased = 2047 then
      if fraction = 0 then .infinite negative else .nan
    else .finite negative (Nat.pow 2 52 + fraction) (biased - 1075)

def ofFloat (x : Float) : Binary64 := ofBits x.toBits.toNat

end Binary64

/-- Whether `mantissa * 2 ^ exponent` is a whole number. -/
def isWhole (mantissa : Nat) (exponent : Int) : Bool :=
  0 ≤ exponent || mantissa % Nat.pow 2 (-exponent).toNat = 0

/-- The whole number `mantissa * 2 ^ exponent`. -/
def wholeValue (mantissa : Nat) (exponent : Int) : Nat :=
  if 0 ≤ exponent then mantissa * Nat.pow 2 exponent.toNat
  else mantissa / Nat.pow 2 (-exponent).toNat

end ScriptCore.Decimal
