/-!
# Ids of the standard registries
-/

namespace OrderDesk.RegistryId

/-- The id that stands for every registry; none may have it. -/
def all : String := "all"

def orders : String := "order"

def menus : String := "menus"

def categories : String := "categories"

def options : String := "options"

def optionGroups : String := "option_groups"

end OrderDesk.RegistryId
