import BoundedPrintf.Binary64.Basic

/-! The shortest decimal that reads back as a given value. Decimal grids are tried from the coarsest
on; the first that has a point among the numbers that round to the value gives the digits, the
nearer of two points and of two equally near ones the even. -/
namespace BoundedPrintf.Binary64

/-- A decimal number, its digits read as one integer and scaled by a power of ten. -/
structure Decimal where
  significand : Nat
  exponent : Int
  deriving DecidableEq, Repr

namespace Decimal

/-- A decimal number in quarters of a unit, as a fraction. -/
def quarters (decimal : Decimal) : Nat × Nat :=
  let whole := 4 * decimal.significand * oneUnits
  if 0 ≤ decimal.exponent then (whole * 10 ^ decimal.exponent.toNat, 1) else (whole, 10 ^ decimal.exponent.natAbs)

/-- Rounding takes the number to this magnitude. Numbers half way to a neighbour go to the even
one. -/
def roundsTo (decimal : Decimal) (units : Nat) : Bool :=
  let (numerator, denominator) := decimal.quarters
  let step := spacing units
  let below := if units = 2 ^ 52 * step && 1 < step then step else 2 * step
  let low := (4 * units - below) * denominator
  let high := (4 * units + 2 * step) * denominator
  if units / step % 2 = 0 then low ≤ numerator && numerator ≤ high else low < numerator && numerator < high

/-- The distance to a magnitude in quarters of a unit, over the denominator of the number. -/
def distance (decimal : Decimal) (units : Nat) : Nat :=
  let (numerator, denominator) := decimal.quarters
  (numerator - 4 * units * denominator : Int).natAbs

/-- Moves zeros at the end of the digits into the exponent. -/
def strip (limit : Nat) (decimal : Decimal) : Decimal :=
  match limit with
  | 0 => decimal
  | limit + 1 =>
      if decimal.significand % 10 = 0 then strip limit ⟨decimal.significand / 10, decimal.exponent + 1⟩ else decimal

end Decimal

/-- The number of whole grid steps of 10^exponent in a magnitude. -/
def gridFloor (units : Nat) (exponent : Int) : Nat :=
  if 0 ≤ exponent then units / (oneUnits * 10 ^ exponent.toNat) else units * 10 ^ exponent.natAbs / oneUnits

/-- The least power of ten above a magnitude. -/
def decade (units : Nat) : Int :=
  (((List.range 640).map fun (n : Nat) => (n : Int) - 325).find? fun exponent => gridFloor units exponent = 0).getD 0

/-- The point of a grid that is nearest to a magnitude, if rounding takes it back there. -/
def nearestOnGrid? (units : Nat) (exponent : Int) : Option Decimal :=
  let floor := gridFloor units exponent
  let below : Decimal := ⟨floor, exponent⟩
  let above : Decimal := ⟨floor + 1, exponent⟩
  match below.roundsTo units, above.roundsTo units with
  | false, false => none
  | true, false => some below
  | false, true => some above
  | true, true =>
      if below.distance units < above.distance units then some below
      else if above.distance units < below.distance units then some above
      else if floor % 2 = 0 then some below else some above

/-- The shortest decimal of a magnitude other than zero. Seventeen digits are always enough. -/
def shortest (units : Nat) : Decimal :=
  let top := decade units
  let found := (List.range 17).findSome? fun (digits : Nat) => nearestOnGrid? units (top - digits - 1)
  (found.getD ⟨0, 0⟩).strip 20

end BoundedPrintf.Binary64
