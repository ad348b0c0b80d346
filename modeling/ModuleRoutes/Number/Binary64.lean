import ModuleRoutes.Number.Power

/-!
# Binary floating point numbers of 64 bits

A finite number is a sign and `significand · 2 ^ exponent` with exact integers, so that rounding is
a statement about integers. `Binary64.round` takes a quotient of naturals to the nearest number, a
tie to the even significand; products, quotients and decimal texts are rounded through it.
-/

namespace ModuleRoutes

namespace Number

def minExponent : Int := -1074

def maxExponent : Int := 971

/-- Significands stay below this bound. -/
def significandLimit : Nat := twoTo 53

/-- A finite number. Above the least exponent the significand has all its 53 bits, so that each
number has one form, zero one for each sign. -/
structure Binary64 where
  negative : Bool
  significand : Nat
  exponent : Int
deriving DecidableEq, Repr

/-- A number that may also be infinite or undefined. -/
inductive Extended where
  | finite (x : Binary64)
  | infinite (negative : Bool)
  | undefined
deriving DecidableEq, Repr

/-- A quotient rounded to the nearest natural, a tie to the even one. -/
def divNearestEven (num den : Nat) : Nat :=
  let quotient := num / den
  let twice := 2 * (num % den)
  if twice < den then quotient
  else if den < twice then quotient + 1
  else if quotient % 2 = 0 then quotient else quotient + 1

/-- `num / den` divided by `2 ^ exponent`, as numerator and denominator. -/
def scaled (num den : Nat) (exponent : Int) : Nat × Nat :=
  if 0 ≤ exponent then (num, den * twoTo exponent.toNat) else (num * twoTo (-exponent).toNat, den)

namespace Binary64

def zero (negative : Bool) : Binary64 := ⟨negative, 0, minExponent⟩

/-- The exponent at which a positive quotient has 53 bits, or the least exponent. -/
def exponentFor (num den : Nat) : Int :=
  let guess : Int := (num.log2 : Int) - (den.log2 : Int) - 52
  let atGuess := scaled num den guess
  let exponent := if atGuess.1 / atGuess.2 < twoTo 52 then guess - 1 else guess
  max exponent minExponent

/-- The number nearest to a quotient, or none when it is beyond the greatest finite number. -/
def round (negative : Bool) (num den : Nat) : Option Binary64 :=
  if num = 0 then some (zero negative)
  else
    let exponent := exponentFor num den
    let parts := scaled num den exponent
    let significand := divNearestEven parts.1 parts.2
    if significand < significandLimit then
      if exponent ≤ maxExponent then some ⟨negative, significand, exponent⟩ else none
    else if exponent + 1 ≤ maxExponent then some ⟨negative, significand / 2, exponent + 1⟩
    else none

/-- The magnitude of a number as numerator and denominator. -/
def fraction (x : Binary64) : Nat × Nat :=
  if 0 ≤ x.exponent then (x.significand * twoTo x.exponent.toNat, 1)
  else (x.significand, twoTo (-x.exponent).toNat)

def mul (x y : Binary64) : Option Binary64 :=
  let (num, den) := x.fraction
  let (num', den') := y.fraction
  round (x.negative != y.negative) (num * num') (den * den')

/-- The quotient of two numbers with a divisor other than zero, rounded. -/
def div (x y : Binary64) : Option Binary64 :=
  let (num, den) := x.fraction
  let (num', den') := y.fraction
  round (x.negative != y.negative) (num * den') (den * num')

def ofNat (n : Nat) : Binary64 := (round false n 1).getD (zero false)

/-- The number nearest to `10 ^ n`. -/
def ofTenTo (n : Nat) : Binary64 := ofNat (tenTo n)

/-- The number nearest to `digits · 10 ^ exponent`, or none when it is beyond the greatest finite
number. Exponents far outside the range are decided without computing the power. -/
def ofDecimal (negative : Bool) (digits : Nat) (exponent : Int) : Option Binary64 :=
  if digits = 0 then some (zero negative)
  else
    let magnitude : Int := (Nat.toDigits 10 digits).length + exponent
    if magnitude < -400 then some (zero negative)
    else if 400 < magnitude then none
    else if 0 ≤ exponent then round negative (digits * tenTo exponent.toNat) 1
    else round negative digits (tenTo (-exponent).toNat)

end Binary64

end Number

end ModuleRoutes
