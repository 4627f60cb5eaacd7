import OrderDesk.Client.Outbox
import OrderDesk.Client.Packets
import OrderDesk.Config
import OrderDesk.Session.Framing
import OrderDesk.Session.Handshake

/-!
# A running kiosk

A kiosk keeps one connection to the server. Without one it dials at fixed
intervals, and at once when a packet is sent. A connection shakes hands first;
then what waits in the outbox goes out, followed by a request for a snapshot of
everything. A connection moves in turns; each turn takes one frame or one
packet of its channel and writes the frames that follow from it.
-/

namespace OrderDesk

structure ClientConnection where
  generation : Nat
  session : Session
  since : Nat
  deriving DecidableEq, Repr

structure Client where
  config : ClientConfig
  kiosk : Kiosk
  outbox : Outbox
  connection? : Option ClientConnection
  dialing : Bool
  stopped : Bool
  draws : Draws
  clock : Nat

namespace Client

def start (config : ClientConfig) (directory : Directory) (draws : Draws) : Client where
  config
  kiosk := .start directory
  outbox := .empty
  connection? := none
  dialing := true
  stopped := false
  draws
  clock := 0

def isEncrypted (c : Client) : Bool := c.outbox.live?.isSome

def publish (c : Client) (event : ClientEvent) : Client := { c with kiosk := c.kiosk.publish event }

def dial (c : Client) : Client :=
  if c.outbox.link?.isNone && !c.stopped then { c with dialing := true } else c

/-! ## Sending -/

/-- Puts a packet into the outbox. One that has to wait for want of a link
makes the kiosk dial. -/
def post (c : Client) (p : Packet) (awaited : Bool) : Client × Sending :=
  match c.outbox.send p awaited with
  | (outbox, .direct) => ({ c with outbox }, .direct)
  | (outbox, .queued) => ({ c with outbox }.dial, .queued)

def send (c : Client) (p : Packet) : Client × Sending := c.post p true

def everything : Packet := .requestData ⟨RegistryId.all⟩

def requestAll (c : Client) : Client × Sending := c.send everything

def submitOrder (c : Client) (o : Order) : Client × Sending := c.send (.orderStatusChanged ⟨o⟩)

/-! ## The connection -/

/-- What a turn leaves behind, the frames it wrote, and what it has to report
to the senders that wait. -/
structure Turn where
  client : Client
  written : List Bytes
  reports : List (Except NodeError Unit)

namespace Turn

def stay (c : Client) : Turn := ⟨c, [], []⟩

/-- The connection ends. Senders whose packets it did not come to are told that
there is no connection. -/
def finish (t : Turn) (connection : ClientConnection) : Turn :=
  let left := ((t.client.outbox.channels[connection.generation]?).map (·.messages)).getD []
  let outbox := (t.client.outbox.teardown connection.generation).close connection.generation
  { t with
    client := { t.client with outbox, connection? := none }.publish .disconnected
    reports := t.reports ++ (left.filter (·.awaited)).map fun _ => .error (.transport .disconnected) }

end Turn

variable (suite : CipherSuite)

def resume (c : Client) (connection : ClientConnection) (session : Session) : Client :=
  { c with connection? := some { connection with session } }

def write (c : Client) (connection : ClientConnection) (session : Session) (ps : List Packet) : Turn :=
  match session.encodeAll suite ps with
  | (session, frames, .ok ()) => ⟨c.resume connection session, frames, []⟩
  | (session, frames, .error _) => Turn.finish ⟨c.resume connection session, frames, []⟩ connection

def connect (c : Client) : Turn :=
  let c := { c with dialing := false }
  if c.stopped then .stay c
  else
    let connection : ClientConnection := ⟨c.outbox.channels.length, .client c.config.clientId, c.clock⟩
    let c := { c with outbox := c.outbox.install }.publish .connected
    match connection.session.begin with
    | .error _ => Turn.finish (.stay c) connection
    | .ok body => c.write suite connection connection.session [.handShake body]

def refuse (c : Client) : Client := { c with dialing := false }

/-- The handshake is done: what waits goes out, then a request for
everything. -/
def welcome (c : Client) (generation : Nat) : Client :=
  if c.outbox.isCurrent generation then
    (({ c with outbox := c.outbox.openLink generation }.publish .encrypted).post everything false).1
  else c

def shakeHands (c : Client) (connection : ClientConnection) (session : Session) (p : Packet) : Turn :=
  match p with
  | .hello body =>
    match session.acceptHello suite c.draws body with
    | ((session, draws), .error _) => Turn.finish (.stay ({ c with draws }.resume connection session)) connection
    | ((session, draws), .ok exchange) => { c with draws }.write suite connection session [.keyExchange exchange]
  | .encryptComplete body =>
    match session.acceptEncryptComplete body with
    | (session, .error _) => Turn.finish (.stay (c.resume connection session)) connection
    | (session, .ok ()) => .stay ((c.resume connection session).welcome connection.generation)
  | _ => Turn.finish (.stay (c.resume connection session.fail)) connection

/-- A packet from the server. One that is not for a kiosk, or that is refused,
is dropped, unless the refusal ends the connection. -/
def serve (c : Client) (connection : ClientConnection) (session : Session) (p : Packet) : Turn :=
  if p.kind.isAcceptedBy .client then
    match c.kiosk.handle p with
    | (kiosk, .ok replies) => { c with kiosk }.write suite connection session replies
    | (kiosk, .error e) =>
      let t := Turn.stay ({ c with kiosk }.resume connection session)
      if e.isFatal then t.finish connection else t
  else .stay (c.resume connection session)

/-- A frame arrives. One that does not decode is dropped, unless the session
fails over it. -/
def receive (c : Client) (frame : Bytes) : Turn :=
  match c.connection? with
  | none => .stay c
  | some connection =>
    match connection.session.decode suite frame with
    | (session, .error e) =>
      let t := Turn.stay (c.resume connection session)
      if e.isFatal then t.finish connection else t
    | (session, .ok p) =>
      if connection.session.isEncrypted then c.serve suite connection session p
      else c.shakeHands suite connection session p

def report (out : Outgoing) (outcome : Except NodeError Unit) : List (Except NodeError Unit) :=
  if out.awaited then [outcome] else []

def forward (c : Client) : Turn :=
  match c.connection? with
  | none => .stay c
  | some connection =>
    if connection.session.isEncrypted then
      match c.outbox.take? connection.generation with
      | none => .stay c
      | some (out, outbox) =>
        match connection.session.encode suite out.packet with
        | (session, .ok frame) => ⟨{ c with outbox }.resume connection session, [frame], report out (.ok ())⟩
        | (session, .error e) =>
          Turn.finish ⟨{ c with outbox }.resume connection session, [], report out (.error e)⟩ connection
    else .stay c

def lose (c : Client) : Turn :=
  match c.connection? with
  | none => .stay c
  | some connection => (Turn.stay c).finish connection

def expire (c : Client) : Turn :=
  match c.connection? with
  | none => .stay c
  | some connection =>
    if connection.session.isEncrypted then .stay c
    else Turn.finish (.stay (c.resume connection connection.session.fail)) connection

def stop (c : Client) : Turn :=
  if c.stopped then .stay c
  else { c with stopped := true, dialing := false, outbox := c.outbox.unlink }.lose

/-! ## Time -/

def isDue (c : Client) (interval : Nat) : Bool := c.clock % interval = 0

def sync (c : Client) : Client := if c.isEncrypted then (c.post everything false).1 else c

/-- What happens at a full millisecond: dialing, draining, asking for
everything, and the end of a handshake whose time is over. -/
def tick (c : Client) : Turn :=
  let c := { c with clock := c.clock + 1 }
  if c.stopped then .stay c
  else
    let c := if c.isDue c.config.reconnectInterval then c.dial else c
    let c := if c.isDue c.config.drainInterval then { c with outbox := c.outbox.drain } else c
    let c := if c.isDue c.config.syncInterval then c.sync else c
    match c.connection? with
    | none => .stay c
    | some connection => if connection.since + c.config.handshakeTimeout ≤ c.clock then c.expire else .stay c

/-- Time goes by while no connection can be made. -/
def advanceOffline (c : Client) : (milliseconds : Nat) → Client
  | 0 => c
  | n + 1 => c.tick.client.refuse.advanceOffline n

end Client

end OrderDesk
