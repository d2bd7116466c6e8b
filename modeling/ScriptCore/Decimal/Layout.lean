import ScriptCore.Decimal.Binary64
import ScriptCore.Decimal.Shortest

/-!
# The texts of a double

A double has two texts. `display` writes every digit in place: a whole number exactly, with
one zero after the point, any other number by its shortest digits and never with an
exponent. `inspect` writes the shortest digits and turns to an exponent for numbers that
are very small or very large.
-/
namespace ScriptCore.Decimal

def zeros (n : Nat) : String := String.ofList (List.replicate n '0')

/-- Every digit in place, with at least one digit on either side of the point. -/
def positional (d : Scientific) : String :=
  let digits := toString d.digits
  if 0 ≤ d.exponent then digits ++ zeros d.exponent.toNat ++ ".0"
  else
    let places := (-d.exponent).toNat
    if places < digits.length then
      (digits.take (digits.length - places)).toString ++ "." ++
        (digits.drop (digits.length - places)).toString
    else "0." ++ zeros (places - digits.length) ++ digits

/-- The power of ten of the first digit. -/
def leadingExponent (d : Scientific) : Int := d.exponent + (toString d.digits).length - 1

/-- One digit before the point, and the power of ten after the letter e. -/
def withExponent (d : Scientific) : String :=
  let digits := toString d.digits
  let fraction := (digits.drop 1).toString
  (digits.take 1).toString ++ (if fraction.isEmpty then "" else "." ++ fraction) ++
    "e" ++ toString (leadingExponent d)

def signed (negative : Bool) (text : String) : String :=
  if negative then "-" ++ text else text

/-- The text of a double in the output of a program. -/
def display (x : Float) : String :=
  match Binary64.ofFloat x with
  | .nan => "NaN"
  | .infinite negative => signed negative "inf"
  | .finite negative mantissa exponent =>
    signed negative <|
      if isWhole mantissa exponent then toString (wholeValue mantissa exponent) ++ ".0"
      else positional (shortest mantissa exponent)

/-- Numbers from `10 ^ (-4)` up to `10 ^ 16` are written in place when inspected. -/
def inspectedInPlace (d : Scientific) : Bool :=
  -4 ≤ leadingExponent d && leadingExponent d < 16

/-- The text of a double when it is inspected. -/
def inspect (x : Float) : String :=
  match Binary64.ofFloat x with
  | .nan => "NaN"
  | .infinite negative => signed negative "inf"
  | .finite negative mantissa exponent =>
    signed negative <|
      if mantissa = 0 then "0.0"
      else
        let d := shortest mantissa exponent
        if inspectedInPlace d then positional d else withExponent d

end ScriptCore.Decimal
