import OrderDesk.Text.Decimal

/-!
# Connections

Connections are numbered in the order in which they are made.
-/

namespace OrderDesk

structure ConnectionId where
  number : UInt64
  deriving DecidableEq, Repr

def ConnectionId.name (id : ConnectionId) : String := "conn-" ++ Decimal.render id.number.toNat

end OrderDesk
