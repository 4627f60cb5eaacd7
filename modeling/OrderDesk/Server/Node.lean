import OrderDesk.Config
import OrderDesk.Server.Connection

/-!
# A running server

The server with its key pair, the connections that are open, and the time.
-/

namespace OrderDesk

structure Guest where
  connection : ServerConnection
  since : Nat

structure ServerNode where
  config : ServerConfig
  secret : Key
  server : Server
  draws : Draws
  guests : List Guest
  running : Bool
  clock : Nat

namespace ServerNode

variable (suite : CipherSuite)

/-- Starts a server with a key pair; without one its secret is drawn. -/
def start (config : ServerConfig) (secret? : Option Key) (directory : Directory) (draws : Draws) : ServerNode where
  config
  secret := secret?.getD draws.next
  server := .start directory
  draws := if secret?.isSome then draws else draws.rest
  guests := []
  running := true
  clock := 0

def publicKey (n : ServerNode) : Key := suite.publicKey n.secret

def accept (n : ServerNode) (id : ConnectionId) : ServerNode :=
  if n.running then
    let (server, connection) := ServerConnection.start n.server id n.secret
    { n with server, guests := n.guests ++ [⟨connection, n.clock⟩] }
  else n

/-- The node after a turn of a connection; one that ended is let go. -/
def settle (n : ServerNode) (t : ServerConnection.Turn) : ServerNode :=
  let updated (g : Guest) : Guest :=
    if g.connection.id = t.connection.id then { g with connection := t.connection } else g
  { n with server := t.server, draws := t.draws, guests := (n.guests.map updated).filter (·.connection.isOpen) }

def turn (n : ServerNode) (id : ConnectionId) (f : ServerConnection → ServerConnection.Turn) :
    ServerNode × List Bytes :=
  match n.guests.find? (·.connection.id = id) with
  | none => (n, [])
  | some g => (n.settle (f g.connection), (f g.connection).written)

def receive (n : ServerNode) (id : ConnectionId) (now : UInt64) (frame : Bytes) : ServerNode × List Bytes :=
  n.turn id fun c => c.receive suite n.server n.draws now frame

def forward (n : ServerNode) (id : ConnectionId) : ServerNode × List Bytes :=
  n.turn id fun c => c.forward suite n.server n.draws

def lose (n : ServerNode) (id : ConnectionId) : ServerNode × List Bytes :=
  n.turn id fun c => c.lose n.server n.draws

def each (n : ServerNode) (f : Server → Draws → Guest → ServerConnection.Turn) : ServerNode :=
  n.guests.foldl (fun n g => n.settle (f n.server n.draws g)) n

def broadcast (n : ServerNode) (p : Packet) (except? : Option ConnectionId) : ServerNode :=
  { n with server := n.server.broadcast p except? }

def recipients (n : ServerNode) (except? : Option ConnectionId) : List Peer := n.server.peers.recipients except?

def advance (n : ServerNode) (milliseconds : Nat) : ServerNode :=
  let n := { n with clock := n.clock + milliseconds }
  n.each fun server draws g =>
    if g.since + n.config.handshakeTimeout ≤ n.clock then g.connection.expire server draws
    else ⟨server, g.connection, draws, []⟩

def shutdown (n : ServerNode) : ServerNode :=
  { n with running := false }.each fun server draws g => g.connection.stop server draws

end ServerNode

end OrderDesk
