import OrderDesk.Packet.Basic
import OrderDesk.Shape.Entities
import OrderDesk.Shape.OfJson

/-!
# Shapes of the packets

How the bodies of packets are written, and the envelope that carries a body
with the id of its packet.
-/

namespace OrderDesk

open Shape

def HandShake.shape : Shape HandShake :=
  record "HandShake" (.cons "client_id" text .nil) (fun (clientId, ()) => { clientId }) (fun p => (p.clientId, ()))
    (fun _ => rfl) (fun _ => rfl)

def Hello.shape : Shape Hello :=
  record "Hello" (.cons "public_key" (list (integer .byte)) <| .cons "nonce" (list (integer .byte)) .nil)
    (fun (publicKey, nonce, ()) => { publicKey, nonce }) (fun p => (p.publicKey, p.nonce, ()))
    (fun _ => rfl) (fun _ => rfl)

def KeyExchange.shape : Shape KeyExchange :=
  record "KeyExchange"
    (.cons "encrypted_session_key" (list (integer .byte)) <| .cons "signed_nonce" (list (integer .byte)) .nil)
    (fun (encryptedSessionKey, signedNonce, ()) => { encryptedSessionKey, signedNonce })
    (fun p => (p.encryptedSessionKey, p.signedNonce, ())) (fun _ => rfl) (fun _ => rfl)

def EncryptComplete.shape : Shape EncryptComplete :=
  record "EncryptComplete" (.cons "timestamp" (integer .unsigned64) .nil) (fun (timestamp, ()) => { timestamp })
    (fun p => (p.timestamp, ())) (fun _ => rfl) (fun _ => rfl)

def RequestData.shape : Shape RequestData :=
  record "RequestData" (.cons "registry_id" text .nil) (fun (registryId, ()) => { registryId })
    (fun p => (p.registryId, ())) (fun _ => rfl) (fun _ => rfl)

def ResponseData.shape : Shape ResponseData :=
  record "ResponseData" (.cons "registry_id" text <| .cons "entities" (list Entity.shape) .nil)
    (fun (registryId, entities, ()) => { registryId, entities }) (fun p => (p.registryId, p.entities, ()))
    (fun _ => rfl) (fun _ => rfl)

def DataAdded.shape : Shape DataAdded :=
  record "DataAdded" (.cons "registry_id" text <| .cons "entity" Entity.shape .nil)
    (fun (registryId, entity, ()) => { registryId, entity }) (fun p => (p.registryId, p.entity, ()))
    (fun _ => rfl) (fun _ => rfl)

def DataDeleted.shape : Shape DataDeleted :=
  record "DataDeleted" (.cons "registry_id" text <| .cons "entity_id" text .nil)
    (fun (registryId, entityId, ()) => { registryId, entityId }) (fun p => (p.registryId, p.entityId, ()))
    (fun _ => rfl) (fun _ => rfl)

def OrderStatusChanged.shape : Shape OrderStatusChanged :=
  record "OrderStatusChanged" (.cons "order" Order.shape .nil) (fun (order, ()) => { order }) (fun p => (p.order, ()))
    (fun _ => rfl) (fun _ => rfl)

def OrderUpdated.shape : Shape OrderUpdated :=
  record "OrderUpdated" (.cons "order" Order.shape .nil) (fun (order, ()) => { order }) (fun p => (p.order, ()))
    (fun _ => rfl) (fun _ => rfl)

/-- A body that is not yet known to be that of its packet. -/
structure Envelope where
  packetId : String
  data : Json
  deriving BEq, Repr

def Envelope.shape : Shape Envelope :=
  record "Envelope" (.cons "packet_id" text <| .cons "data" any .nil) (fun (packetId, data, ()) => { packetId, data })
    (fun e => (e.packetId, e.data, ())) (fun _ => rfl) (fun _ => rfl)

namespace Packet

def bodyJson : Packet → Json
  | handShake p => HandShake.shape.toJson p
  | hello p => Hello.shape.toJson p
  | keyExchange p => KeyExchange.shape.toJson p
  | encryptComplete p => EncryptComplete.shape.toJson p
  | requestData p => RequestData.shape.toJson p
  | responseData p => ResponseData.shape.toJson p
  | dataAdded p => DataAdded.shape.toJson p
  | dataDeleted p => DataDeleted.shape.toJson p
  | orderStatusChanged p => OrderStatusChanged.shape.toJson p
  | orderUpdated p => OrderUpdated.shape.toJson p

def ofBodyJson (kind : PacketKind) (data : Json) : Except Mismatch Packet :=
  match kind with
  | .handShake => handShake <$> HandShake.shape.ofJson .tree data
  | .hello => hello <$> Hello.shape.ofJson .tree data
  | .keyExchange => keyExchange <$> KeyExchange.shape.ofJson .tree data
  | .encryptComplete => encryptComplete <$> EncryptComplete.shape.ofJson .tree data
  | .requestData => requestData <$> RequestData.shape.ofJson .tree data
  | .responseData => responseData <$> ResponseData.shape.ofJson .tree data
  | .dataAdded => dataAdded <$> DataAdded.shape.ofJson .tree data
  | .dataDeleted => dataDeleted <$> DataDeleted.shape.ofJson .tree data
  | .orderStatusChanged => orderStatusChanged <$> OrderStatusChanged.shape.ofJson .tree data
  | .orderUpdated => orderUpdated <$> OrderUpdated.shape.ofJson .tree data

end Packet

end OrderDesk
