/-!
# Section kinds and slots

A module has seven slots for sections, three of them for resources. The kind of a slot is what
handler keys and reports name; the number of actions of each slot is fixed.
-/

namespace ModuleRoutes

/-- The structural role of a section, in the order in which reports group findings. -/
inductive Kind where
  | dashboard
  | resource
  | analytics
  | settings
  | utilities
deriving DecidableEq, Repr, Inhabited

namespace Kind

def all : List Kind := [.dashboard, .resource, .analytics, .settings, .utilities]

def text : Kind → String
  | .dashboard => "dashboard"
  | .resource => "resource"
  | .analytics => "analytics"
  | .settings => "settings"
  | .utilities => "utilities"

def ofText? : String → Option Kind
  | "dashboard" => some .dashboard
  | "resource" => some .resource
  | "analytics" => some .analytics
  | "settings" => some .settings
  | "utilities" => some .utilities
  | _ => none

def unknownText (name : String) : String := "unknown section kind `" ++ name ++ "`"

/-- The place of a kind in report order. -/
def rank : Kind → Nat
  | .dashboard => 0
  | .resource => 1
  | .analytics => 2
  | .settings => 3
  | .utilities => 4

end Kind

/-- One of the seven section positions of a module, in the order of the table. -/
inductive Slot where
  | dashboard
  | primaryResource
  | secondaryResourceA
  | secondaryResourceB
  | analytics
  | settings
  | utilities
deriving DecidableEq, Repr, Inhabited

namespace Slot

def all : List Slot :=
  [.dashboard, .primaryResource, .secondaryResourceA, .secondaryResourceB, .analytics, .settings,
    .utilities]

def kind : Slot → Kind
  | .dashboard => .dashboard
  | .primaryResource | .secondaryResourceA | .secondaryResourceB => .resource
  | .analytics => .analytics
  | .settings => .settings
  | .utilities => .utilities

/-- The number of actions, and so of routes, that a section of the slot declares. -/
def arity : Slot → Nat
  | .dashboard => 5
  | .primaryResource => 6
  | .secondaryResourceA | .secondaryResourceB => 4
  | .analytics => 3
  | .settings => 2
  | .utilities => 4

def isResource (slot : Slot) : Bool := slot.kind = .resource

def text : Slot → String
  | .dashboard => "dashboard"
  | .primaryResource => "primaryResource"
  | .secondaryResourceA => "secondaryResourceA"
  | .secondaryResourceB => "secondaryResourceB"
  | .analytics => "analytics"
  | .settings => "settings"
  | .utilities => "utilities"

def named : List (String × Slot) := all.map fun slot => (slot.text, slot)

def index (slot : Slot) : Nat := all.findIdx (· = slot)

end Slot

/-- The number of routes of every module. -/
def moduleRouteCount : Nat := 28

/-- The arities of the slots add up to the number of routes of a module. -/
theorem foldl_arity :
    Slot.all.foldl (fun total slot => total + slot.arity) 0 = moduleRouteCount := rfl

end ModuleRoutes
