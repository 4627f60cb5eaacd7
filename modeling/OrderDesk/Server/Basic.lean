import OrderDesk.Packet.Basic
import OrderDesk.PeerTable
import OrderDesk.Registry.Snapshot

/-!
# What the server keeps

Its registries, the number that the next order gets, the table of peers, and
what it has published so far.
-/

namespace OrderDesk

inductive ServerEvent
  | peerEncrypted (connection : ConnectionId) (clientId : String)
  | peerDisconnected (connection : ConnectionId)
  | orderChanged (order : Order)
  | registryChanged (registryId : String)
  deriving DecidableEq, Repr

structure Server where
  directory : Directory
  nextOrderId : Int64
  peers : PeerTable Packet
  events : List ServerEvent

namespace Server

def firstListed? (orders : Registry) : Option Int64 := orders.all.head?.map Policy.number

/-- The number of the first new order: one more than the number of the order
that is listed first, and at least one. -/
def firstOrderId (d : Directory) : Int64 :=
  match d.orders?.bind firstListed? with
  | none => 1
  | some highest => Amount.succSaturating (max highest 0)

def start (d : Directory) : Server where
  directory := d
  nextOrderId := firstOrderId d
  peers := .empty
  events := []

def publish (s : Server) (event : ServerEvent) : Server := { s with events := s.events ++ [event] }

def broadcast (s : Server) (packet : Packet) (except? : Option ConnectionId) : Server :=
  { s with peers := s.peers.broadcast packet except? }

def numberAbove (s : Server) (orderId : Int64) : Server :=
  { s with nextOrderId := max s.nextOrderId (Amount.succSaturating orderId) }

/-- Sends the contents of a registry to every encrypted peer, but for one, and
publishes that the registry changed. Without such a registry nothing happens. -/
def announce (s : Server) (registryId : String) (except? : Option ConnectionId) : Server :=
  match s.directory.get? registryId with
  | none => s
  | some r => (s.broadcast (.responseData r.response) except?).publish (.registryChanged registryId)

end Server

end OrderDesk
