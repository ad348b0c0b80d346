/-!
# Sets of code points

A property of characters that a standard lists is kept in one of two compact forms: the code points
at which membership changes, or ranges with a step for properties that alternate, as upper and lower
case letters do in many blocks.
-/

namespace ModuleRoutes

namespace Text

/-- Whether membership has changed an odd number of times up to a code point. -/
def flippedAt (flips : List Nat) (code : Nat) : Bool :=
  flips.foldl (fun inside flip => if flip ≤ code then !inside else inside) false

/-- Code points from `first` to `last`, `step` apart. -/
structure CodeRange where
  first : Nat
  last : Nat
  step : Nat
deriving DecidableEq, Repr

namespace CodeRange

/-- Whether a code point lies on the range. -/
def covers (range : CodeRange) (code : Nat) : Bool :=
  range.first ≤ code && code ≤ range.last && (code - range.first) % range.step == 0

end CodeRange

end Text

end ModuleRoutes
