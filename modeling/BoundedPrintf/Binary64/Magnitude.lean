import BoundedPrintf.Binary64.Basic

/-! Powers of ten and decimal magnitudes. A power is a product of tens, rounded after each factor; a
magnitude is found by scaling with such powers. Both are therefore those of the arithmetic itself,
and can differ from the nearest value in the last place. -/
namespace BoundedPrintf.Binary64

/-- The product of so many tens. From 309 on it is infinite. -/
def tens : Nat → Binary64
  | 0 => one
  | count + 1 => tens count * ten

/-- The least number of tens whose product is infinite. -/
def infiniteTens : Nat := 309

/-- A power of ten; below the power zero, the reciprocal of a product. -/
def powerOfTen (exponent : Int) : Binary64 :=
  let product := tens (min exponent.natAbs infiniteTens)
  if exponent < 0 then one / product else product

/-- The value nearest to 10^200. -/
def scale : Binary64 := ofRatio false (10 ^ 200) 1

/-- The value nearest to 10^-200. -/
def smallest : Binary64 := ofRatio false 1 (10 ^ 200)

/-- Counts how often a power can be multiplied by ten and still not exceed a value. -/
def stepsUp (value : Binary64) : Nat → Binary64 → Nat
  | 0, _ => 0
  | limit + 1, power => if (power * ten).le value then stepsUp value limit (power * ten) + 1 else 0

/-- Counts the tens by which a value has to be multiplied to reach one. -/
def stepsDown (value : Binary64) : Nat → Binary64 → Nat
  | 0, _ => 0
  | limit + 1, power => if (value * power).lt one then stepsDown value limit (power * ten) + 1 else 0

/-- The exponent of the leading decimal digit, and zero for zero, infinities and NaN. Values far
below one are scaled up first, so that no product overflows. -/
def magnitude (value : Binary64) : Int :=
  let value := if value.isNegative then -value else value
  if value.isZero || !value.isFinite then 0
  else if one.le value then stepsUp value infiniteTens one
  else if value.lt smallest then -200 - stepsDown (value * scale) infiniteTens one
  else -stepsDown value infiniteTens one

/-- Multiplies by a power of ten in steps of 10^200, so that the factor stays finite. -/
def scaleUp (value : Binary64) (exponent : Nat) : Binary64 :=
  if 200 < exponent then scaleUp (value * scale) (exponent - 200) else value * powerOfTen exponent
termination_by exponent
decreasing_by omega

/-- From 2^52 on a value has no fraction. -/
def wholeFrom : Binary64 := .finite false (2 ^ 52 * oneUnits)

/-- Adds half a unit of the last decimal place that is kept. Values without a fraction stay as they
are. -/
def roundAt (value : Binary64) (places : Nat) : Binary64 :=
  if wholeFrom.le value then value else value + half * powerOfTen (-(min places 400 : Nat))

/-- A value as a mantissa and a power of ten, rounded to so many decimal places of the mantissa. -/
def normalize (value : Binary64) (places : Nat) : Binary64 × Int :=
  if value.isZero then (zero, 0)
  else
    let exponent := value.magnitude
    let mantissa := if 0 ≤ exponent then value / powerOfTen exponent else value.scaleUp exponent.natAbs
    let (mantissa, exponent) := adjust (adjust (mantissa, exponent))
    let mantissa := mantissa.roundAt places
    if ten.le mantissa then (mantissa / ten, exponent + 1) else (mantissa, exponent)
where
  /-- Moves the mantissa by one place towards the range from one to ten. -/
  adjust : Binary64 × Int → Binary64 × Int
    | (mantissa, exponent) =>
      if ten.le mantissa then (mantissa / ten, exponent + 1)
      else if mantissa.lt one then (mantissa * ten, exponent - 1)
      else (mantissa, exponent)

end BoundedPrintf.Binary64
