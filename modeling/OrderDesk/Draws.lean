import OrderDesk.Crypto.Key

/-!
# Random draws

All randomness comes in draws of 32 bytes from an endless source.
-/

namespace OrderDesk

structure Draws where
  source : Nat → Key
  count : Nat

namespace Draws

def start (source : Nat → Key) : Draws := ⟨source, 0⟩

def next (d : Draws) : Key := d.source d.count

def rest (d : Draws) : Draws := { d with count := d.count + 1 }

end Draws

end OrderDesk
