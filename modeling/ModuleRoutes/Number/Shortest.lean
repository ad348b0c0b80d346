import ModuleRoutes.Number.Binary64

/-!
# The shortest decimal that reads back

Every number is the nearest number to many decimals. `Binary64.shortest` finds one with the fewest
digits, and of those the one nearest to the number. The decimals that read back lie between the
midpoints to the neighbouring numbers, the midpoints themselves included when the significand is
even; on the grid of decimals with a given last place it suffices to test the two points beside the
number.
-/

namespace ModuleRoutes

namespace Number

/-- A positive decimal `digits · 10 ^ exponent`. -/
structure Decimal where
  digits : Nat
  exponent : Int
deriving DecidableEq, Repr

namespace Binary64

/-- The number and the midpoints to its neighbours, as multiples of one unit `2 ^ unit`. -/
structure Interval where
  low : Nat
  value : Nat
  high : Nat
  unit : Int
  closed : Bool

/-- The decimals that read back as a positive number. -/
def interval (x : Binary64) : Interval where
  low :=
    if x.significand = twoTo 52 ∧ minExponent < x.exponent then 4 * x.significand - 1
    else 4 * x.significand - 2
  value := 4 * x.significand
  high := 4 * x.significand + 2
  unit := x.exponent - 2
  closed := x.significand % 2 = 0

/-- The size of a unit in the grid `10 ^ place`, as numerator and denominator. -/
def unitIn (unit place : Int) : Nat × Nat :=
  let (num, den) := if 0 ≤ unit then (twoTo unit.toNat, 1) else (1, twoTo (-unit).toNat)
  if 0 ≤ place then (num, den * tenTo place.toNat) else (num * tenTo (-place).toNat, den)

/-- Whether the point `n` of a grid lies in the interval. -/
def Interval.holds (bounds : Interval) (num den n : Nat) : Bool :=
  if bounds.closed then bounds.low * num ≤ n * den && n * den ≤ bounds.high * num
  else bounds.low * num < n * den && n * den < bounds.high * num

/-- The point nearest to the number on the grid `10 ^ place` that reads back, if one does. -/
def pointAt (bounds : Interval) (place : Int) : Option Nat :=
  let (num, den) := unitIn bounds.unit place
  let below := bounds.value * num / den
  let above := below + 1
  let distanceBelow := bounds.value * num - below * den
  let distanceAbove := above * den - bounds.value * num
  let belowHolds := below ≠ 0 && bounds.holds num den below
  let aboveHolds := bounds.holds num den above
  if belowHolds && aboveHolds then
    if distanceBelow < distanceAbove then some below
    else if distanceAbove < distanceBelow then some above
    else if below % 2 = 0 then some below else some above
  else if belowHolds then some below
  else if aboveHolds then some above
  else none

/-- The number of digits before the point of a positive number, not above zero for numbers below
one. -/
def leadingPlace (x : Binary64) : Int :=
  let (num, den) := x.fraction
  let whole := num / den
  if whole ≠ 0 then (Nat.toDigits 10 whole).length
  else 1 - (Nat.toDigits 10 (den / num)).length

/-- The first grid with a point that reads back, from coarse to fine. -/
def search (bounds : Interval) : Nat → Int → Option Decimal
  | 0, _ => none
  | steps + 1, place =>
    match pointAt bounds place with
    | some digits => some ⟨digits, place⟩
    | none => search bounds steps (place - 1)

/-- The number of zeros at the end of a decimal text. -/
def trailingZeros (digits : Nat) : Nat :=
  ((Nat.toDigits 10 digits).reverse.takeWhile (· = '0')).length

/-- The shortest decimal that reads back as a positive number, without zeros at its end. -/
def shortest (x : Binary64) : Decimal :=
  match search x.interval 20 (x.leadingPlace + 1) with
  | some found =>
    let zeros := trailingZeros found.digits
    ⟨found.digits / tenTo zeros, found.exponent + zeros⟩
  | none => ⟨x.significand, x.exponent⟩

end Binary64

/-- How a format writes numbers: the exponents of the leading digit between which notation is plain,
and the mark and sign of an exponent. -/
structure NumberStyle where
  plainFrom : Int
  plainBelow : Int
  exponentMark : String
  positiveSign : String

def zeros (n : Nat) : String := String.ofList (List.replicate n '0')

/-- A decimal in plain notation, always with a point. -/
def Decimal.plain (d : Decimal) : String :=
  let digits := Nat.toDigits 10 d.digits
  if 0 ≤ d.exponent then String.ofList digits ++ zeros d.exponent.toNat ++ ".0"
  else
    let point : Int := digits.length + d.exponent
    if 0 < point then
      String.ofList (digits.take point.toNat) ++ "." ++ String.ofList (digits.drop point.toNat)
    else "0." ++ zeros (-point).toNat ++ String.ofList digits

/-- A decimal as one digit, the rest after a point, and an exponent. -/
def Decimal.scientific (style : NumberStyle) (d : Decimal) : String :=
  let digits := Nat.toDigits 10 d.digits
  let lead : Int := digits.length + d.exponent - 1
  let mantissa :=
    match digits with
    | [] => "0"
    | [digit] => String.ofList [digit]
    | digit :: rest => String.ofList (digit :: '.' :: rest)
  let magnitude := String.ofList (Nat.toDigits 10 lead.natAbs)
  mantissa ++ style.exponentMark ++ (if 0 ≤ lead then style.positiveSign else "-") ++ magnitude

/-- The text of a number in a style: the shortest decimal, plain where the style allows it. -/
def Binary64.text (style : NumberStyle) (x : Binary64) : String :=
  let sign := if x.negative then "-" else ""
  if x.significand = 0 then sign ++ "0.0"
  else
    let d := x.shortest
    let lead : Int := (Nat.toDigits 10 d.digits).length + d.exponent - 1
    if style.plainFrom ≤ lead ∧ lead < style.plainBelow then sign ++ d.plain
    else sign ++ d.scientific style

end Number

end ModuleRoutes
