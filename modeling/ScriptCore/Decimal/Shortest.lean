/-!
# Shortest decimals

`shortest` gives the decimal with the fewest digits among those that read back as a given
double, and of those the nearest one; of two equally near the larger is taken.

A decimal reads back as a double when it lies in the double's rounding interval. Decimals
with few digits lie on coarse grids of multiples of a power of ten, so the search starts
at a grid coarser than the number itself and halts at the first that meets the interval.
If any point of a grid lies in the interval, then so does one of the number's two
neighbours on that grid.
-/
namespace ScriptCore.Decimal

/-- The number `digits * 10 ^ exponent`. -/
structure Scientific where
  digits : Nat
  exponent : Int
  deriving DecidableEq

/-- The reals that round to a double, as numerators over one denominator. -/
structure Interval where
  low : Nat
  value : Nat
  high : Nat
  denominator : Nat
  /-- Whether the ends belong to the interval. -/
  closed : Bool

/-- The interval of `mantissa * 2 ^ exponent`. Below a power of two the next double is only
half as far away. -/
def Interval.ofBinary (mantissa : Nat) (exponent : Int) : Interval :=
  let down := if mantissa = Nat.pow 2 52 ∧ -1074 < exponent then 1 else 2
  let scale := Nat.pow 2 exponent.toNat
  { low := (4 * mantissa - down) * scale
    value := 4 * mantissa * scale
    high := (4 * mantissa + 2) * scale
    denominator := 4 * Nat.pow 2 (-exponent).toNat
    closed := mantissa % 2 = 0 }

namespace Interval

/-- Whether `point / (denominator * divisor)` lies in the interval. -/
def admits (i : Interval) (divisor point : Nat) : Bool :=
  if i.closed then i.low * divisor ≤ point && point ≤ i.high * divisor
  else i.low * divisor < point && point < i.high * divisor

/-- The nearest multiple of `10 ^ exponent` in the interval, if there is one. -/
def onGrid? (i : Interval) (exponent : Int) : Option Nat :=
  let unit := i.denominator * Nat.pow 10 exponent.toNat
  let divisor := Nat.pow 10 (-exponent).toNat
  let below := i.value * divisor / unit
  let above := below + 1
  match i.admits divisor (below * unit), i.admits divisor (above * unit) with
  | true, true =>
    if i.value * divisor - below * unit < above * unit - i.value * divisor then some below
    else some above
  | true, false => some below
  | false, true => some above
  | false, false => none

/-- The first grid from `10 ^ exponent` downwards that meets the interval. -/
def search (i : Interval) : Nat → Int → Scientific
  | 0, exponent => ⟨0, exponent⟩
  | steps + 1, exponent =>
    match i.onGrid? exponent with
    | some digits => ⟨digits, exponent⟩
    | none => search i steps (exponent - 1)

end Interval

/-- A power of ten above `mantissa * 2 ^ exponent`; `30103 / 100000` bounds the logarithm
of two. -/
def decimalOrder (mantissa : Nat) (exponent : Int) : Int :=
  (mantissa.log2 + 1 + exponent) * 30103 / 100000 + 1

/-- The shortest decimal that reads back as `mantissa * 2 ^ exponent`. Seventeen digits
always suffice, so the search is over within the steps it is given. -/
def shortest (mantissa : Nat) (exponent : Int) : Scientific :=
  (Interval.ofBinary mantissa exponent).search 24 (decimalOrder mantissa exponent)

end ScriptCore.Decimal
