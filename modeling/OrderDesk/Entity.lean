import OrderDesk.Order
import OrderDesk.Text.Decimal

/-!
# Entities

The five kinds of thing that registries hold and packets carry. Every entity
has an element id: an order's is its number in decimal, any other entity's is
the id it carries.
-/

namespace OrderDesk

inductive EntityKind
  | order
  | menu
  | category
  | menuOption
  | optionGroup
  deriving DecidableEq, Hashable, Repr

namespace EntityKind

def name : EntityKind → String
  | order => "order"
  | menu => "menu"
  | category => "category"
  | menuOption => "option"
  | optionGroup => "option_group"

def label : EntityKind → String
  | order => "Order"
  | menu => "Menu"
  | category => "Category"
  | menuOption => "MenuOption"
  | optionGroup => "OptionGroup"

def all : List EntityKind := [order, menu, category, menuOption, optionGroup]

def ofName? (name : String) : Option EntityKind := all.find? (·.name = name)

end EntityKind

inductive Entity
  | order (value : Order)
  | menu (value : Menu)
  | category (value : Category)
  | menuOption (value : MenuOption)
  | optionGroup (value : OptionGroup)
  deriving DecidableEq, Hashable, Repr

namespace Entity

def kind : Entity → EntityKind
  | order _ => .order
  | menu _ => .menu
  | category _ => .category
  | menuOption _ => .menuOption
  | optionGroup _ => .optionGroup

end Entity

def Order.elementId (order : Order) : String := Decimal.render order.orderId.toInt

theorem Order.elementId_inj {a b : Order} : a.elementId = b.elementId ↔ a.orderId = b.orderId :=
  ⟨fun h => Int64.toInt_inj.1 (Decimal.render_inj h), fun h => congrArg (fun n : Int64 => Decimal.render n.toInt) h⟩

/-- The id under which an entity is known among the entities of its kind. -/
def Entity.elementId : Entity → String
  | .order o => o.elementId
  | .menu m => m.id
  | .category c => c.id
  | .menuOption o => o.id
  | .optionGroup g => g.id

def Entity.number : Entity → Int64
  | .order o => o.orderId
  | _ => 0

/-- An entity of one kind. -/
def Element (kind : EntityKind) : Type := { e : Entity // e.kind = kind }

namespace Element

variable {kind : EntityKind}

instance : DecidableEq (Element kind) := inferInstanceAs (DecidableEq { e : Entity // e.kind = kind })

instance : Hashable (Element kind) := inferInstanceAs (Hashable { e : Entity // e.kind = kind })

def entity (e : Element kind) : Entity := e.val

def id (e : Element kind) : String := e.val.elementId

def order : Element .order → Order
  | ⟨.order o, _⟩ => o

def menu : Element .menu → Menu
  | ⟨.menu m, _⟩ => m

def category : Element .category → Category
  | ⟨.category c, _⟩ => c

def ofOrder (o : Order) : Element .order := ⟨.order o, rfl⟩

def ofMenu (m : Menu) : Element .menu := ⟨.menu m, rfl⟩

def ofCategory (c : Category) : Element .category := ⟨.category c, rfl⟩

def ofEntity? (kind : EntityKind) (e : Entity) : Option (Element kind) :=
  if h : e.kind = kind then some ⟨e, h⟩ else none

theorem ofEntity?_entity (e : Element kind) : ofEntity? kind e.entity = some e := dif_pos e.property

end Element

end OrderDesk
