import OrderDesk.Entity
import OrderDesk.Packet.Kind
import OrderDesk.Shape.Basic

/-!
# Shapes of the entities

How menus, carts, orders and entities are written. The names of fields and
constants are fixed by the wire.
-/

namespace OrderDesk

open Shape

def MenuOption.shape : Shape MenuOption :=
  record "MenuOption" (.cons "id" text <| .cons "name" text <| .cons "extra_cost" (integer .signed64) .nil)
    (fun (id, name, extraCost, ()) => { id, name, extraCost }) (fun o => (o.id, o.name, o.extraCost, ()))
    (fun _ => rfl) (fun _ => rfl)

def OptionGroup.shape : Shape OptionGroup :=
  record "OptionGroup"
    (.cons "id" text <| .cons "name" text <| .cons "required" flag <| .cons "options" (list MenuOption.shape) .nil)
    (fun (id, name, required, options, ()) => { id, name, required, options })
    (fun g => (g.id, g.name, g.required, g.options, ())) (fun _ => rfl) (fun _ => rfl)

def Menu.shape : Shape Menu :=
  record "Menu"
    (.cons "id" text <| .cons "name" text <| .cons "price" (integer .signed64) <| .cons "category_id" text <|
      .cons "image_path" text <| .cons "description" text <| .cons "option_groups" (list OptionGroup.shape) .nil)
    (fun (id, name, price, categoryId, imagePath, description, optionGroups, ()) =>
      { id, name, price, categoryId, imagePath, description, optionGroups })
    (fun m => (m.id, m.name, m.price, m.categoryId, m.imagePath, m.description, m.optionGroups, ()))
    (fun _ => rfl) (fun _ => rfl)

def Category.shape : Shape Category :=
  record "Category" (.cons "id" text <| .cons "name" text <| .cons "menus" (list Menu.shape) .nil)
    (fun (id, name, menus, ()) => { id, name, menus }) (fun c => (c.id, c.name, c.menus, ()))
    (fun _ => rfl) (fun _ => rfl)

def OrderStatus.naming : Naming OrderStatus where
  cases := OrderStatus.all
  name := OrderStatus.name
  mem_cases s := by cases s <;> decide
  name_injective s t := by cases s <;> cases t <;> decide

def OrderStatus.shape : Shape OrderStatus := choice OrderStatus.naming

def SelectedOption.shape : Shape SelectedOption :=
  record "SelectedOption" (.cons "group_id" text <| .cons "option" MenuOption.shape .nil)
    (fun (groupId, option, ()) => { groupId, option }) (fun s => (s.groupId, s.option, ()))
    (fun _ => rfl) (fun _ => rfl)

def OrderItem.shape : Shape OrderItem :=
  record "OrderItem"
    (.cons "menu" Menu.shape <| .cons "selected_options" (list SelectedOption.shape) <|
      .cons "quantity" (integer .unsigned32) .nil)
    (fun (menu, selectedOptions, quantity, ()) => { menu, selectedOptions, quantity })
    (fun i => (i.menu, i.selectedOptions, i.quantity, ())) (fun _ => rfl) (fun _ => rfl)

def Cart.shape : Shape Cart :=
  record "Cart" (.cons "items" (list OrderItem.shape) .nil) (fun (items, ()) => { items }) (fun c => (c.items, ()))
    (fun _ => rfl) (fun _ => rfl)

def Order.shape : Shape Order :=
  record "Order"
    (.cons "order_id" (integer .signed64) <| .cons "customer" text <| .cons "order_time" (integer .unsigned64) <|
      .cons "status" OrderStatus.shape <| .cons "cart" Cart.shape .nil)
    (fun (orderId, customer, orderTime, status, cart, ()) => { orderId, customer, orderTime, status, cart })
    (fun o => (o.orderId, o.customer, o.orderTime, o.status, o.cart, ())) (fun _ => rfl) (fun _ => rfl)

def EntityKind.naming : Naming EntityKind where
  cases := EntityKind.all
  name := EntityKind.name
  mem_cases k := by cases k <;> decide
  name_injective k l := by cases k <;> cases l <;> decide

def EntityKind.shape : Shape EntityKind := choice EntityKind.naming

def Side.naming : Naming Side where
  cases := Side.all
  name := Side.name
  mem_cases s := by cases s <;> decide
  name_injective s t := by cases s <;> cases t <;> decide

def Side.shape : Shape Side := choice Side.naming

namespace Entity

def Body : EntityKind → Type
  | .order => Order
  | .menu => Menu
  | .category => Category
  | .menuOption => MenuOption
  | .optionGroup => OptionGroup

def bodyShape : (k : EntityKind) → Shape (Body k)
  | .order => Order.shape
  | .menu => Menu.shape
  | .category => Category.shape
  | .menuOption => MenuOption.shape
  | .optionGroup => OptionGroup.shape

def ofBody : (k : EntityKind) → Body k → Entity
  | .order => order
  | .menu => menu
  | .category => category
  | .menuOption => menuOption
  | .optionGroup => optionGroup

def body : Entity → (k : EntityKind) × Body k
  | order o => ⟨.order, o⟩
  | menu m => ⟨.menu, m⟩
  | category c => ⟨.category, c⟩
  | menuOption o => ⟨.menuOption, o⟩
  | optionGroup g => ⟨.optionGroup, g⟩

def shape : Shape Entity :=
  tagged "Entity" EntityKind.naming bodyShape ofBody body (fun e => by cases e <;> rfl)

def bodyJson (e : Entity) : Json := (bodyShape e.body.1).toJson e.body.2

end Entity

end OrderDesk
