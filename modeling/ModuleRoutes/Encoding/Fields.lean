/-!
# Keyed fields

Fields are pairs of a key and a value in ascending order of keys without repetition. Setting a key
keeps that order.
-/

namespace ModuleRoutes

namespace Encoding

/-- Fields in ascending order of keys with one of them set. -/
def setField {α : Type} (key : String) (value : α) : List (String × α) → List (String × α)
  | [] => [(key, value)]
  | (other, old) :: fields =>
    if key < other then (key, value) :: (other, old) :: fields
    else if key = other then (key, value) :: fields
    else (other, old) :: setField key value fields

end Encoding

end ModuleRoutes
