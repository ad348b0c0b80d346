/-!
# Powers of two and of ten

The bounds of fixed-width integers and the places of decimal and binary texts are powers of two
numbers only. They are named here once.
-/

namespace ModuleRoutes

namespace Number

def twoTo (n : Nat) : Nat := Nat.pow 2 n

def tenTo (n : Nat) : Nat := Nat.pow 10 n

/-- Whether an integer has a signed form of `bits + 1` bits. -/
def FitsSigned (bits : Nat) (value : Int) : Prop := -(twoTo bits) ≤ value ∧ value < twoTo bits

instance (bits : Nat) (value : Int) : Decidable (FitsSigned bits value) :=
  inferInstanceAs (Decidable (_ ∧ _))

end Number

end ModuleRoutes
