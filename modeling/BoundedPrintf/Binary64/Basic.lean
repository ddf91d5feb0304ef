import BoundedPrintf.Bytes

/-! IEEE binary64 numbers as exact integers. A finite value is a sign and a number of units of
2^-1074, the least positive value, so that every operation is one exact fraction and one rounding to
the nearest value, ties to even. -/
namespace BoundedPrintf

inductive Binary64
  | nan
  | infinity (negative : Bool)
  | finite (negative : Bool) (units : Nat)
  deriving DecidableEq, Repr

namespace Binary64

/-- The number of units in one. -/
def oneUnits : Nat := 2 ^ 1074

/-- The least number of units that is too large for a finite value. -/
def overflowUnits : Nat := 2 ^ 2098

/-- The integer nearest to a fraction, of two the even one. -/
def divideToEven (numerator denominator : Nat) : Nat :=
  let quotient := numerator / denominator
  let twice := 2 * (numerator % denominator)
  if twice < denominator then quotient
  else if denominator < twice then quotient + 1
  else quotient + quotient % 2

/-- The distance in units between neighbours at a magnitude: one up to 2^53 units, and then such
that 53 binary digits remain. -/
def spacing (units : Nat) : Nat := 2 ^ (units.log2 - 52)

/-- The representable number of units nearest to a fraction of units, when no magnitude is too
large. -/
def roundUnits (numerator denominator : Nat) : Nat :=
  let step := spacing (numerator / denominator)
  divideToEven numerator (denominator * step) * step

/-- The value nearest to a fraction of units. -/
def round (negative : Bool) (numerator denominator : Nat) : Binary64 :=
  let units := roundUnits numerator denominator
  if units < overflowUnits then .finite negative units else .infinity negative

/-- The value nearest to a fraction. -/
def ofRatio (negative : Bool) (numerator denominator : Nat) : Binary64 :=
  round negative (numerator * oneUnits) denominator

def ofNat (value : Nat) : Binary64 := ofRatio false value 1

def zero : Binary64 := .finite false 0

def one : Binary64 := .finite false oneUnits

def ten : Binary64 := .finite false (10 * oneUnits)

def half : Binary64 := .finite false (2 ^ 1073)

def neg : Binary64 → Binary64
  | .nan => .nan
  | .infinity negative => .infinity !negative
  | .finite negative units => .finite (!negative) units

def add : Binary64 → Binary64 → Binary64
  | .nan, _ | _, .nan => .nan
  | .infinity a, .infinity b => if a = b then .infinity a else .nan
  | .infinity a, .finite .. | .finite .., .infinity a => .infinity a
  | .finite a u, .finite b v =>
      if a = b then round a (u + v) 1
      else if v < u then round a (u - v) 1
      else if u < v then round b (v - u) 1
      else zero

def sub (x y : Binary64) : Binary64 := x.add y.neg

def mul : Binary64 → Binary64 → Binary64
  | .nan, _ | _, .nan => .nan
  | .infinity a, .infinity b => .infinity (a ^^ b)
  | .infinity a, .finite b v | .finite b v, .infinity a => if v = 0 then .nan else .infinity (a ^^ b)
  | .finite a u, .finite b v => round (a ^^ b) (u * v) oneUnits

def div : Binary64 → Binary64 → Binary64
  | .nan, _ | _, .nan => .nan
  | .infinity _, .infinity _ => .nan
  | .infinity a, .finite b _ => .infinity (a ^^ b)
  | .finite a _, .infinity b => .finite (a ^^ b) 0
  | .finite a u, .finite b v =>
      if v = 0 then if u = 0 then .nan else .infinity (a ^^ b)
      else round (a ^^ b) (u * oneUnits) v

instance : Neg Binary64 := ⟨neg⟩
instance : Add Binary64 := ⟨add⟩
instance : Sub Binary64 := ⟨sub⟩
instance : Mul Binary64 := ⟨mul⟩
instance : Div Binary64 := ⟨div⟩

/-- The signed number of units. -/
def signed (negative : Bool) (units : Nat) : Int := if negative then -units else units

/-- Less than. No comparison with a NaN holds, and zeros of either sign are equal. -/
def lt : Binary64 → Binary64 → Bool
  | .nan, _ | _, .nan => false
  | .infinity a, .infinity b => a && !b
  | .infinity a, .finite .. => a
  | .finite .., .infinity b => !b
  | .finite a u, .finite b v => signed a u < signed b v

/-- Less than or equal. -/
def le : Binary64 → Binary64 → Bool
  | .nan, _ | _, .nan => false
  | .infinity a, .infinity b => a || !b
  | .infinity a, .finite .. => a
  | .finite .., .infinity b => !b
  | .finite a u, .finite b v => signed a u ≤ signed b v

def isNaN : Binary64 → Bool
  | .nan => true
  | _ => false

def isInfinite : Binary64 → Bool
  | .infinity _ => true
  | _ => false

def isFinite : Binary64 → Bool
  | .finite .. => true
  | _ => false

def isZero : Binary64 → Bool
  | .finite _ 0 => true
  | _ => false

/-- Below zero. Neither a negative zero nor a NaN is. -/
def isNegative (x : Binary64) : Bool := x.lt zero

def isPositive (x : Binary64) : Bool := zero.lt x

/-- The largest of the digits 0 to 9 that does not exceed the value, and 0 for what is below zero or
no number. -/
def leadingDigit : Binary64 → Nat
  | .finite false units => min 9 (units / oneUnits)
  | .infinity false => 9
  | _ => 0

/-- The value of an encoding. Every payload of a NaN gives the same value. -/
def ofBits (bits : UInt64) : Binary64 :=
  let negative := 2 ^ 63 ≤ bits.toNat
  let exponent := bits.toNat / 2 ^ 52 % 2 ^ 11
  let fraction := bits.toNat % 2 ^ 52
  if exponent = 2047 then if fraction = 0 then .infinity negative else .nan
  else if exponent = 0 then .finite negative fraction
  else .finite negative ((2 ^ 52 + fraction) * 2 ^ (exponent - 1))

/-- The encoding of a representable value. A NaN is quiet, positive and without payload. -/
def toBits : Binary64 → UInt64
  | .nan => 0x7ff8000000000000
  | .infinity negative => UInt64.ofNat (sign negative + 2047 * 2 ^ 52)
  | .finite negative units =>
      let exponent := units.log2 - 52
      UInt64.ofNat (sign negative + exponent * 2 ^ 52 + units / 2 ^ exponent)
where
  sign (negative : Bool) : Nat := if negative then 2 ^ 63 else 0

end Binary64

end BoundedPrintf
