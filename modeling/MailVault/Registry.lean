import MailVault.Saver

/-!
# Registries

A registry knows savers by name.  The names are shown in ascending order,
whatever the order in which the savers came.
-/

namespace MailVault

structure Registry where
  savers : Table String Saver

namespace Registry

def empty : Registry where
  savers := Table.empty

def contains (registry : Registry) (name : String) : Bool :=
  registry.savers.contains name

def find? (registry : Registry) (name : String) : Option Saver :=
  registry.savers.find? name

/-- Register a saver; the answer tells whether another one is replaced. -/
def register (registry : Registry) (name : String) (saver : Saver) : Bool × Registry :=
  (registry.contains name, { registry with savers := registry.savers.insert name saver })

def names (registry : Registry) : List String :=
  registry.savers.keys.mergeSort fun left right => decide (left ≤ right)

def describe (registry : Registry) : String :=
  "[" ++ String.intercalate ", " (registry.names.map Text.quote) ++ "]"

end Registry
end MailVault
