/-!
# Menus

What the kiosks sell: menus with groups of options, and categories that list
menus in display order.
-/

namespace OrderDesk

structure MenuOption where
  id : String
  name : String
  extraCost : Int64
  deriving DecidableEq, Hashable, Repr

structure OptionGroup where
  id : String
  name : String
  required : Bool
  options : List MenuOption
  deriving DecidableEq, Hashable, Repr

structure Menu where
  id : String
  name : String
  price : Int64
  categoryId : String
  imagePath : String
  description : String
  optionGroups : List OptionGroup
  deriving DecidableEq, Hashable, Repr

structure Category where
  id : String
  name : String
  menus : List Menu
  deriving DecidableEq, Hashable, Repr

namespace Category

def lists (c : Category) (menuId : String) : Bool := c.menus.any (·.id = menuId)

/-- The category without every menu of that id; none if it lists no such menu. -/
def withoutMenu (c : Category) (menuId : String) : Option Category :=
  if c.lists menuId then some { c with menus := c.menus.filter (·.id ≠ menuId) } else none

end Category

end OrderDesk
