import OrderDesk.Registry.Snapshot

/-!
# What a kiosk keeps of the shop

Its copy of the server's registries, and what it has published so far.
-/

namespace OrderDesk

inductive ClientEvent
  | connected
  | encrypted
  | registrySynced (registryId : String)
  | orderUpdated (orderId : Int64)
  | disconnected
  deriving DecidableEq, Repr

structure Kiosk where
  directory : Directory
  events : List ClientEvent

namespace Kiosk

def start (d : Directory) : Kiosk := ⟨d, []⟩

def publish (k : Kiosk) (event : ClientEvent) : Kiosk := { k with events := k.events ++ [event] }

end Kiosk

end OrderDesk
