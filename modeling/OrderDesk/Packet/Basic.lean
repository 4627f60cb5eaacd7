import OrderDesk.Bytes
import OrderDesk.Entity
import OrderDesk.Packet.Kind

/-!
# Packets

What travels between a kiosk and the server. A packet is one of ten bodies.
-/

namespace OrderDesk

/-- A kiosk announces itself; the name is for addressing and logs only. -/
structure HandShake where
  clientId : String
  deriving DecidableEq, Repr

structure Hello where
  publicKey : Bytes
  nonce : Bytes
  deriving DecidableEq, Repr

structure KeyExchange where
  encryptedSessionKey : Bytes
  signedNonce : Bytes
  deriving DecidableEq, Repr

/-- The first sealed frame: the session is live. -/
structure EncryptComplete where
  timestamp : UInt64
  deriving DecidableEq, Repr

structure RequestData where
  registryId : String
  deriving DecidableEq, Repr

structure ResponseData where
  registryId : String
  entities : List Entity
  deriving DecidableEq, Repr

structure DataAdded where
  registryId : String
  entity : Entity
  deriving DecidableEq, Repr

structure DataDeleted where
  registryId : String
  entityId : String
  deriving DecidableEq, Repr

/-- An order that changed or, without a number yet, was placed. -/
structure OrderStatusChanged where
  order : Order
  deriving DecidableEq, Repr

structure OrderUpdated where
  order : Order
  deriving DecidableEq, Repr

inductive Packet
  | handShake (body : HandShake)
  | hello (body : Hello)
  | keyExchange (body : KeyExchange)
  | encryptComplete (body : EncryptComplete)
  | requestData (body : RequestData)
  | responseData (body : ResponseData)
  | dataAdded (body : DataAdded)
  | dataDeleted (body : DataDeleted)
  | orderStatusChanged (body : OrderStatusChanged)
  | orderUpdated (body : OrderUpdated)
  deriving DecidableEq, Repr

namespace Packet

def kind : Packet → PacketKind
  | handShake _ => .handShake
  | hello _ => .hello
  | keyExchange _ => .keyExchange
  | encryptComplete _ => .encryptComplete
  | requestData _ => .requestData
  | responseData _ => .responseData
  | dataAdded _ => .dataAdded
  | dataDeleted _ => .dataDeleted
  | orderStatusChanged _ => .orderStatusChanged
  | orderUpdated _ => .orderUpdated

def id (p : Packet) : String := p.kind.id

end Packet

end OrderDesk
