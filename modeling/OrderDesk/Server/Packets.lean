import OrderDesk.Error
import OrderDesk.Registry.Cascade
import OrderDesk.Server.Basic

/-!
# What the server does with a packet

A kiosk whose session is encrypted sends packets; the server changes its
registries, tells the other peers, and answers the sender with a list of
packets. A packet that is refused may still have changed the server before it
was refused, so the server comes back in any case.
-/

namespace OrderDesk

namespace Server

abbrev Outcome := Server × Except NodeError (List Packet)

def ignore (s : Server) : Outcome := (s, .ok [])

def refuse (s : Server) (e : RegistryError) : Outcome := (s, .error (.registry e))

/-! ## Orders -/

/-- The server's version of an order that got a number: a pending order is
accepted. -/
def numbered (o : Order) (orderId : Int64) : Order :=
  { o with orderId, status := if o.status = .pending then .accepted else o.status }

/-- Stores an order in the registry of orders and tells the other peers. The
sender hears of it only if the order is not what was submitted. -/
def storeOrder (s : Server) (orders : Registry) (sender : ConnectionId) (submitted canonical : Order) : Outcome :=
  match orders.upsertEntity (.order canonical) with
  | .error e => s.refuse e
  | .ok r =>
    let update := Packet.orderUpdated ⟨canonical⟩
    let s := { s with directory := s.directory.set r }
    ((s.publish (.orderChanged canonical)).broadcast update (some sender),
      .ok (if canonical = submitted then [] else [update]))

/-- An order without a number gets the next one; the numbers of later orders
stay above a number that is given. -/
def takeOrder (s : Server) (sender : ConnectionId) (o : Order) : Outcome :=
  match s.directory.orders? with
  | none => s.refuse (.unknownRegistry RegistryId.orders)
  | some orders =>
    if o.isUnassigned then
      if s.nextOrderId = Int64.maxValue then (s, .error (.protocol (.invalidMessage "order ids exhausted")))
      else
        { s with nextOrderId := s.nextOrderId + 1 }.storeOrder orders sender o (numbered o s.nextOrderId)
    else (s.numberAbove o.orderId).storeOrder orders sender o o

/-! ## Registries -/

/-- A kiosk's snapshot goes in place of the registry's contents and on to the
other peers. Snapshots of the registry of orders are dropped. -/
def takeSnapshot (s : Server) (sender : ConnectionId) (snapshot : ResponseData) : Outcome :=
  if snapshot.registryId = RegistryId.orders then s.ignore
  else
    match s.directory.load snapshot with
    | .error e => s.refuse e
    | .ok d => ({ s with directory := d }.announce snapshot.registryId (some sender), .ok [])

def numberAboveEntity (s : Server) (e : Entity) : Server :=
  match e with
  | .order o => s.numberAbove o.orderId
  | _ => s

def takeAdded (s : Server) (added : DataAdded) : Outcome :=
  match s.directory.require added.registryId with
  | .error e => s.refuse e
  | .ok r =>
    let s := s.numberAboveEntity added.entity
    match r.upsertEntity added.entity with
    | .error e => s.refuse e
    | .ok r => ({ s with directory := s.directory.set r }.announce added.registryId none, .ok [])

def takeDeleted (s : Server) (deleted : DataDeleted) : Outcome :=
  match s.directory.delete deleted.registryId deleted.entityId with
  | .error e => s.refuse e
  | .ok x => (x.touched.foldl (fun s id => s.announce id none) { s with directory := x.directory }, .ok [])

/-! ## Every packet -/

def handle (s : Server) (sender : ConnectionId) (packet : Packet) : Outcome :=
  match packet with
  | .handShake _ | .keyExchange _ => (s, .error (.session (.protocolViolation (.afterHandshake packet.kind))))
  | .hello _ | .encryptComplete _ | .orderUpdated _ => s.ignore
  | .requestData request => (s, ((s.directory.answer request).map (·.map .responseData)).mapError .registry)
  | .responseData snapshot => s.takeSnapshot sender snapshot
  | .dataAdded added => s.takeAdded added
  | .dataDeleted deleted => s.takeDeleted deleted
  | .orderStatusChanged changed => s.takeOrder sender changed.order

end Server

end OrderDesk
