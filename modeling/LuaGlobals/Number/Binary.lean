/-! # Binary floating point numbers of double precision

A decimal number that is meant as a floating point number takes the value of the nearest number
that 53 binary digits can hold. All such numbers are multiples of one smallest unit, so a nearest
one is found in whole units.

* `roundDiv` is the integer next to a quotient, and of two that are equally near the even one;
  `roundDiv_near` bounds its distance and `roundDiv_mul` says that whole quotients stay.
* `nearestUnits` is the nearest floating point number to a quotient, in units of `2 ^ -1074`.
* `FloatValue` is what the library keeps of a floating point number, and `FloatValue.ofDecimal`
  finds it for a decimal number.
-/

namespace LuaGlobals

/-! ## Rounding -/

/-- The integer next to a quotient. A quotient halfway between two integers goes to the even
one. -/
def roundDiv (numerator denominator : Nat) : Nat :=
  let quotient := numerator / denominator
  let rest := numerator % denominator
  if 2 * rest < denominator ∨ (2 * rest = denominator ∧ quotient % 2 = 0) then quotient
  else quotient + 1

/-- The integer lies within one half of the quotient. -/
theorem roundDiv_near (numerator : Nat) {denominator : Nat} (h : 0 < denominator) :
    2 * (denominator * roundDiv numerator denominator) ≤ 2 * numerator + denominator ∧
      2 * numerator ≤ 2 * (denominator * roundDiv numerator denominator) + denominator := by
  have division := Nat.div_add_mod numerator denominator
  have small := Nat.mod_lt numerator h
  simp only [roundDiv]
  split
  · omega
  · rw [Nat.mul_add, Nat.mul_one]
    omega

/-- A quotient that is an integer stays as it is. -/
theorem roundDiv_mul (value : Nat) {denominator : Nat} (h : 0 < denominator) :
    roundDiv (denominator * value) denominator = value := by
  simp [roundDiv, Nat.mul_div_cancel_left value h, h]

/-- The number of binary places of the smallest unit. -/
def unitPlaces : Nat := 1074

/-- The floating point number next to a quotient, in units of `2 ^ -unitPlaces`. Its first 53
binary digits count, so a quotient of more than 53 digits is rounded to a multiple of a larger
step. -/
def nearestUnits (numerator denominator : Nat) : Nat :=
  let scaled := numerator <<< unitPlaces
  let step := (scaled / denominator).log2 - 52
  roundDiv scaled (denominator <<< step) <<< step

/-! ## Values -/

/-- What the library keeps of a floating point number. -/
inductive FloatValue where
  /-- An infinity, or no number. -/
  | notFinite
  /-- A number with a fraction. -/
  | fraction
  /-- An integer. -/
  | integer (value : Int)
deriving DecidableEq, Repr

namespace FloatValue

/-- The number of units, counted in binary digits, from which on a number is infinite. -/
def unitDigits : Nat := unitPlaces + 1024

/-- The floating point number next to a quotient, or to its negative. -/
def ofQuotient (negative : Bool) (numerator denominator : Nat) : FloatValue :=
  let units := nearestUnits numerator denominator
  let whole := units >>> unitPlaces
  if unitDigits ≤ units.log2 then .notFinite
  else if whole <<< unitPlaces ≠ units then .fraction
  else .integer (if negative then -(whole : Int) else whole)

/-- A power of ten. -/
def powerOfTen (exponent : Nat) : Nat :=
  Nat.pow 10 exponent

/-- The decimal exponent beyond which every number is infinite, and below whose negative every
number is zero. -/
def exponentBound : Int := 330

/-- The floating point number next to `mantissa * 10 ^ exponent`. -/
def ofDecimal (mantissa : Int) (exponent : Int) : FloatValue :=
  -- The number is below `10 ^ magnitude`, and not below a tenth of that.
  let magnitude := exponent + (Nat.toDigits 10 mantissa.natAbs).length
  if mantissa = 0 ∨ magnitude < -exponentBound then .integer 0
  else if exponentBound < magnitude then .notFinite
  else ofQuotient (mantissa < 0) (mantissa.natAbs * powerOfTen exponent.toNat)
    (powerOfTen (-exponent).toNat)

end FloatValue

end LuaGlobals
