import OrderDesk.Proofs.Registry.Writes
import OrderDesk.Server.Packets

/-!
# Runs of the server

What can happen at a server, one move after the other, and what the server
writes to the connection whose move it is. `handled` says once what a packet
can do; what holds along every run is derived from that.
-/

namespace OrderDesk.Server

inductive Move
  | packet (sender : ConnectionId) (p : Packet)
  | join (c : ConnectionId)
  | welcome (c : ConnectionId) (clientId : String)
  | forward (c : ConnectionId)
  | leave (c : ConnectionId)

def Move.connection : Move → ConnectionId
  | packet c _ | join c | welcome c _ | forward c | leave c => c

/-! ## Moves -/

/-- A packet for the server is handled; what is refused gets no answer. -/
def dispatch (s : Server) (sender : ConnectionId) (p : Packet) : Server × List Packet :=
  if p.kind.isAcceptedBy .server then ((s.handle sender p).1, (s.handle sender p).2.toOption.getD []) else (s, [])

def join (s : Server) (c : ConnectionId) : Server := { s with peers := s.peers.insert c }

def welcome (s : Server) (c : ConnectionId) (clientId : String) : Server :=
  { s with peers := (s.peers.setClientId c clientId).markEncrypted c }.publish (.peerEncrypted c clientId)

def forward (s : Server) (c : ConnectionId) : Server × List Packet :=
  match (s.peers.get? c).bind fun peer => s.peers.take? peer.mailbox with
  | none => (s, [])
  | some (p, peers) => ({ s with peers }, [p])

def leave (s : Server) (c : ConnectionId) : Server :=
  match s.peers.get? c with
  | none => s
  | some peer => { s with peers := (s.peers.remove c).close peer.mailbox }.publish (.peerDisconnected c)

/-- The server after a move, with what it writes to the connection. -/
def act (s : Server) : Move → Server × List Packet
  | .packet sender p => s.dispatch sender p
  | .join c => (s.join c, [])
  | .welcome c clientId => (s.welcome c clientId, [])
  | .forward c => s.forward c
  | .leave c => (s.leave c, [])

def after (s : Server) (m : Move) : Server := (s.act m).1

def run (s : Server) (ms : List Move) : Server := ms.foldl after s

theorem run_append (s : Server) (ms ms' : List Move) : s.run (ms ++ ms') = (s.run ms).run ms' := List.foldl_append

theorem after_eq (s : Server) (m : Move) :
    (∃ sender p, m = .packet sender p ∧ p.kind.isAcceptedBy .server ∧ s.after m = (s.handle sender p).1) ∨
      (s.after m).directory = s.directory ∧ (s.after m).nextOrderId = s.nextOrderId := by
  cases m with
  | packet sender p =>
    have hafter : s.after (.packet sender p) = (s.dispatch sender p).1 := rfl
    rw [hafter, dispatch]
    split
    · next hp => exact .inl ⟨sender, p, rfl, hp, rfl⟩
    · exact .inr ⟨rfl, rfl⟩
  | join c => exact .inr ⟨rfl, rfl⟩
  | welcome c clientId => exact .inr ⟨rfl, rfl⟩
  | forward c =>
    have hafter : s.after (.forward c) = (s.forward c).1 := rfl
    rw [hafter, forward]
    split <;> exact .inr ⟨rfl, rfl⟩
  | leave c =>
    have hafter : s.after (.leave c) = s.leave c := rfl
    rw [hafter, leave]
    split <;> exact .inr ⟨rfl, rfl⟩

/-! ## What a packet can do -/

abbrev submission (o : Order) : Packet := .orderStatusChanged ⟨o⟩

theorem directory_numberAboveEntity (s : Server) (e : Entity) : (s.numberAboveEntity e).directory = s.directory := by
  cases e <;> rfl

theorem peers_numberAboveEntity (s : Server) (e : Entity) : (s.numberAboveEntity e).peers = s.peers := by
  cases e <;> rfl

theorem announce_keeps (s : Server) (id : String) (except? : Option ConnectionId) :
    (s.announce id except?).directory = s.directory ∧ (s.announce id except?).nextOrderId = s.nextOrderId := by
  unfold announce
  split <;> exact ⟨rfl, rfl⟩

/-- The server after an order was filed: its version is told to the others,
and to the sender if it is not what was submitted. -/
def filed (s : Server) (orders : Registry) (e : Element orders.kind) (sender : ConnectionId) (o : Order) : Server :=
  ({ s with directory := s.directory.set (orders.upsert e) }.publish (.orderChanged o)).broadcast (.orderUpdated ⟨o⟩)
    (some sender)

/-- The server after a registry was written that others are told of. -/
def told (s : Server) (d : Directory) (ids : List String) (except? : Option ConnectionId) : Server :=
  ids.foldl (fun s id => s.announce id except?) { s with directory := d }

theorem told_keeps (s : Server) (d : Directory) (ids : List String) (except? : Option ConnectionId) :
    (s.told d ids except?).directory = d ∧ (s.told d ids except?).nextOrderId = s.nextOrderId := by
  suffices h : ∀ s' : Server, (ids.foldl (fun s id => s.announce id except?) s').directory = s'.directory ∧
      (ids.foldl (fun s id => s.announce id except?) s').nextOrderId = s'.nextOrderId from h _
  induction ids with
  | nil => exact fun _ => ⟨rfl, rfl⟩
  | cons id ids ih =>
    intro s'
    have hs' := s'.announce_keeps id except?
    have htail := ih (s'.announce id except?)
    exact ⟨htail.1.trans hs'.1, htail.2.trans hs'.2⟩

/-- The cases of a packet of a sender: it writes nothing but maybe the number
of the next order, or it writes one registry, or it deletes. -/
inductive Handled (s : Server) (sender : ConnectionId) : Packet → Outcome → Prop
  | answered (request : RequestData) (replies : List ResponseData) (h : s.directory.answer request = .ok replies) :
    Handled s sender (.requestData request) (s, .ok (replies.map .responseData))
  | dropped (p : Packet) (h : p.kind ≠ .orderStatusChanged) : Handled s sender p (s, .ok [])
  | refused (p : Packet) (e : NodeError) (h : p.kind ≠ .orderStatusChanged) : Handled s sender p (s, .error e)
  | withoutOrders (o : Order) (h : s.directory.orders? = none) :
    Handled s sender (submission o) (s.refuse (.unknownRegistry RegistryId.orders))
  | exhausted (o : Order) (ho : o.isUnassigned) (h : s.nextOrderId = Int64.maxValue) :
    Handled s sender (submission o) (s, .error (.protocol (.invalidMessage "order ids exhausted")))
  | checkedOut (o : Order) (orders : Registry) (e : Element orders.kind) (ho : o.isUnassigned)
    (h : s.nextOrderId ≠ Int64.maxValue) (hr : s.directory.orders? = some orders)
    (he : e.entity = .order (numbered o s.nextOrderId)) :
    Handled s sender (submission o)
      ({ s with nextOrderId := s.nextOrderId + 1 }.filed orders e sender (numbered o s.nextOrderId),
        .ok (if numbered o s.nextOrderId = o then [] else [.orderUpdated ⟨numbered o s.nextOrderId⟩]))
  | resubmitted (o : Order) (orders : Registry) (e : Element orders.kind) (ho : ¬o.isUnassigned)
    (hr : s.directory.orders? = some orders) (he : e.entity = .order o) :
    Handled s sender (submission o) ((s.numberAbove o.orderId).filed orders e sender o, .ok [])
  | loaded (snapshot : ResponseData) (r : Registry) (es : List (Element r.kind))
    (hid : snapshot.registryId ≠ RegistryId.orders) (hr : s.directory.get? snapshot.registryId = some r)
    (hes : es.map (·.entity) = snapshot.entities) :
    Handled s sender (.responseData snapshot)
      (s.told (s.directory.set (r.replaceAll es)) [snapshot.registryId] (some sender), .ok [])
  | mismatched (added : DataAdded) (e : RegistryError) :
    Handled s sender (.dataAdded added) ((s.numberAboveEntity added.entity).refuse e)
  | added (registryId : String) (r : Registry) (e : Element r.kind) (hr : s.directory.get? registryId = some r) :
    Handled s sender (.dataAdded ⟨registryId, e.entity⟩)
      ((s.numberAboveEntity e.entity).told (s.directory.set (r.upsert e)) [registryId] none, .ok [])
  | deleted (deleted : DataDeleted) (x : Deletion)
    (h : s.directory.delete deleted.registryId deleted.entityId = .ok x) :
    Handled s sender (.dataDeleted deleted) (s.told x.directory x.touched none, .ok [])

theorem storeOrder_eq (s : Server) {orders : Registry} (hk : orders.kind = .order) (sender : ConnectionId)
    (submitted canonical : Order) :
    ∃ e : Element orders.kind, e.entity = .order canonical ∧
      s.storeOrder orders sender submitted canonical =
        (s.filed orders e sender canonical, .ok (if canonical = submitted then [] else [.orderUpdated ⟨canonical⟩])) := by
  obtain ⟨e, he, hupsert⟩ := Registry.exists_upsertEntity_order hk canonical
  refine ⟨e, he, ?_⟩
  rw [storeOrder, hupsert]
  rfl

theorem numbered_ne {o : Order} (ho : o.isUnassigned) {n : Int64} (hn : 0 < n) : numbered o n ≠ o := by
  intro h
  have hid : n = o.orderId := congrArg Order.orderId h
  have hle : o.orderId ≤ 0 := of_decide_eq_true ho
  exact Int64.not_le.2 hn (hid ▸ hle)

theorem handled_takeOrder (s : Server) (sender : ConnectionId) (o : Order) :
    Handled s sender (submission o) (s.takeOrder sender o) := by
  unfold takeOrder
  split
  · next h => exact .withoutOrders o h
  · next orders hr =>
    split
    · next ho =>
      split
      · next h => exact .exhausted o ho h
      · next h =>
        obtain ⟨e, he, heq⟩ := storeOrder_eq { s with nextOrderId := s.nextOrderId + 1 }
          (Directory.orders?_eq_some_iff.1 hr).2.1 sender o (numbered o s.nextOrderId)
        rw [heq]
        exact .checkedOut o orders e ho h hr he
    · next ho =>
      obtain ⟨e, he, heq⟩ := storeOrder_eq (s.numberAbove o.orderId) (Directory.orders?_eq_some_iff.1 hr).2.1 sender o o
      rw [heq, if_pos rfl]
      exact .resubmitted o orders e ho hr he

theorem handled_takeSnapshot (s : Server) (sender : ConnectionId) (snapshot : ResponseData) :
    Handled s sender (.responseData snapshot) (s.takeSnapshot sender snapshot) := by
  unfold takeSnapshot
  split
  · exact .dropped _ nofun
  · next hid =>
    split
    · next e _ => exact .refused _ (.registry e) nofun
    · next d hd =>
      obtain ⟨r, hr, es, hes, rfl⟩ := Directory.load_eq_ok hd
      exact .loaded snapshot r es hid hr hes

theorem handled_takeAdded (s : Server) (sender : ConnectionId) (added : DataAdded) :
    Handled s sender (.dataAdded added) (s.takeAdded added) := by
  unfold takeAdded
  split
  · next e _ => exact .refused _ (.registry e) nofun
  · next r hr =>
    split
    · next e _ => exact .mismatched added e
    · next r' hr' =>
      obtain ⟨e, he, rfl⟩ := Registry.upsertEntity_eq_ok hr'
      obtain ⟨registryId, x⟩ := added
      obtain rfl : e.entity = x := he
      have hadded : Handled s sender _ _ := .added registryId r e (Directory.require_eq_ok_iff.1 hr)
      rwa [← s.directory_numberAboveEntity e.entity] at hadded

theorem handled_takeDeleted (s : Server) (sender : ConnectionId) (deleted : DataDeleted) :
    Handled s sender (.dataDeleted deleted) (s.takeDeleted deleted) := by
  unfold takeDeleted
  split
  · next e _ => exact .refused _ (.registry e) nofun
  · next x hx => exact .deleted deleted x hx

theorem handled (s : Server) (sender : ConnectionId) (p : Packet) : Handled s sender p (s.handle sender p) := by
  cases p with
  | handShake | keyExchange => exact .refused _ _ nofun
  | hello | encryptComplete | orderUpdated => exact .dropped _ nofun
  | requestData request =>
    rw [handle]
    cases h : s.directory.answer request with
    | error e => exact .refused _ (.registry e) nofun
    | ok replies => exact .answered request replies h
  | responseData snapshot => exact s.handled_takeSnapshot sender snapshot
  | dataAdded added => exact s.handled_takeAdded sender added
  | dataDeleted deleted => exact s.handled_takeDeleted sender deleted
  | orderStatusChanged changed => exact s.handled_takeOrder sender changed.order

theorem handled_keeps {s : Server} {sender : ConnectionId} {p : Packet} {out : Outcome} (h : Handled s sender p out) :
    s.directory.Keeps out.1.directory := by
  cases h with
  | answered | dropped | refused | withoutOrders | exhausted => exact .refl _
  | checkedOut o orders e ho h hr he =>
    exact Directory.keeps_set_upsert (Directory.get?_self (Directory.orders?_eq_some_iff.1 hr).1) e
  | resubmitted o orders e ho hr he =>
    exact Directory.keeps_set_upsert (Directory.get?_self (Directory.orders?_eq_some_iff.1 hr).1) e
  | loaded snapshot r es hid hr hes =>
    rw [(told_keeps _ _ _ _).1]
    exact Directory.keeps_set_replaceAll (Directory.get?_self hr) es
  | mismatched added e =>
    have hd := s.directory_numberAboveEntity added.entity
    exact hd ▸ .refl _
  | added registryId r e hr =>
    rw [(told_keeps _ _ _ _).1]
    exact Directory.keeps_set_upsert (Directory.get?_self hr) e
  | deleted deleted x h =>
    rw [(told_keeps _ _ _ _).1]
    exact (Directory.delete_from h).rewrites.toKeeps

theorem after_keeps (s : Server) (m : Move) : s.directory.Keeps (s.after m).directory := by
  rcases s.after_eq m with ⟨sender, p, -, -, h⟩ | ⟨hd, -⟩
  · rw [h]
    exact handled_keeps (s.handled sender p)
  · rw [hd]
    exact .refl _

theorem run_keeps (s : Server) (ms : List Move) : s.directory.Keeps (s.run ms).directory := by
  induction ms generalizing s with
  | nil => exact .refl _
  | cons m ms ih => exact (s.after_keeps m).trans (ih (s.after m))

end OrderDesk.Server
