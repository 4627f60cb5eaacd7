import OrderDesk.Client.Basic
import OrderDesk.Error

/-!
# What a kiosk does with a packet

The server's word is taken as it comes: a snapshot goes in place of a
registry's contents, an order in place of the order of its number.
-/

namespace OrderDesk

namespace Kiosk

abbrev Outcome := Kiosk × Except NodeError (List Packet)

def ignore (k : Kiosk) : Outcome := (k, .ok [])

def refuse (k : Kiosk) (e : RegistryError) : Outcome := (k, .error (.registry e))

def takeSnapshot (k : Kiosk) (snapshot : ResponseData) : Outcome :=
  match k.directory.load snapshot with
  | .error e => k.refuse e
  | .ok d => ({ k with directory := d }.publish (.registrySynced snapshot.registryId), .ok [])

def takeOrder (k : Kiosk) (o : Order) : Outcome :=
  match k.directory.orders? with
  | none => k.refuse (.unknownRegistry RegistryId.orders)
  | some r =>
    match r.upsertEntity (.order o) with
    | .error e => k.refuse e
    | .ok r => ({ k with directory := k.directory.set r }.publish (.orderUpdated o.orderId), .ok [])

def handle (k : Kiosk) (packet : Packet) : Outcome :=
  match packet with
  | .hello _ | .encryptComplete _ => (k, .error (.session (.protocolViolation (.afterHandshake packet.kind))))
  | .handShake _ | .keyExchange _ | .dataAdded _ | .dataDeleted _ => k.ignore
  | .requestData request => (k, ((k.directory.answer request).map (·.map .responseData)).mapError .registry)
  | .responseData snapshot => k.takeSnapshot snapshot
  | .orderStatusChanged changed => k.takeOrder changed.order
  | .orderUpdated updated => k.takeOrder updated.order

end Kiosk

end OrderDesk
