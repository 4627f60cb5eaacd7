import OrderDesk.Amount
import OrderDesk.Menu

/-!
# Carts and orders

A cart holds lines, a line is a menu with the options picked for it and a
quantity. An order is a cart with a customer, a time and a status; its number
is assigned by the server, and until then it is zero or negative.
-/

namespace OrderDesk

inductive OrderStatus
  | pending
  | accepted
  | canceled
  | unknown
  deriving DecidableEq, Hashable, Repr

namespace OrderStatus

def name : OrderStatus → String
  | pending => "pending"
  | accepted => "accepted"
  | canceled => "canceled"
  | unknown => "unknown"

def all : List OrderStatus := [pending, accepted, canceled, unknown]

end OrderStatus

structure SelectedOption where
  groupId : String
  option : MenuOption
  deriving DecidableEq, Hashable, Repr

structure OrderItem where
  menu : Menu
  selectedOptions : List SelectedOption
  quantity : UInt32
  deriving DecidableEq, Hashable, Repr

namespace OrderItem

def total (item : OrderItem) : Except Overflow Int64 := do
  let options ← Amount.sum (item.selectedOptions.map (·.option.extraCost))
  let each ← Amount.add item.menu.price options
  Amount.mul each (Int64.ofNat item.quantity.toNat)

/-- The name of the group that an option was picked from, or its id if the
menu has no such group. -/
def groupName (item : OrderItem) (picked : SelectedOption) : String :=
  match item.menu.optionGroups.find? (·.id = picked.groupId) with
  | some group => group.name
  | none => picked.groupId

def description (item : OrderItem) : String :=
  match item.selectedOptions with
  | [] => item.menu.name
  | picked =>
    let options := picked.map fun p => item.groupName p ++ ": " ++ p.option.name
    item.menu.name ++ " (" ++ String.intercalate ", " options ++ ")"

end OrderItem

structure Cart where
  items : List OrderItem
  deriving DecidableEq, Hashable, Repr

namespace Cart

def empty : Cart := ⟨[]⟩

/-- The sum of the lines' totals. Each line is worked out when its turn in the
sum comes, so that the first step to overflow is the one reported. -/
def total (cart : Cart) : Except Overflow Int64 :=
  cart.items.foldlM (fun sum item => do Amount.add sum (← item.total)) 0

end Cart

structure Order where
  orderId : Int64
  customer : String
  orderTime : UInt64
  status : OrderStatus
  cart : Cart
  deriving DecidableEq, Hashable, Repr

namespace Order

def checkout (customer : String) (orderTime : UInt64) (cart : Cart) : Order where
  orderId := 0
  customer
  orderTime
  status := .pending
  cart

def isUnassigned (order : Order) : Bool := order.orderId ≤ 0

def withStatus (order : Order) (status : OrderStatus) : Order := { order with status }

end Order

end OrderDesk
