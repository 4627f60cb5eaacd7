import OrderDesk.Server.Packets
import OrderDesk.Session.Framing
import OrderDesk.Session.Handshake

/-!
# A connection to the server

Until its session is encrypted a connection takes handshake packets only. From
then on it takes packets and answers them, and writes what waits in its
mailbox. Whatever ends it, its peer leaves the table. A connection moves in
turns; each turn takes one frame or one waiting packet and writes the frames
that follow from it.
-/

namespace OrderDesk

structure ServerConnection where
  id : ConnectionId
  mailbox : Nat
  session : Session
  isOpen : Bool
  deriving DecidableEq, Repr

namespace ServerConnection

/-- What a turn leaves behind, and the frames it wrote. -/
structure Turn where
  server : Server
  connection : ServerConnection
  draws : Draws
  written : List Bytes

def start (server : Server) (id : ConnectionId) (secret : Key) : Server × ServerConnection :=
  ({ server with peers := server.peers.insert id }, ⟨id, server.peers.mailboxes.length, .server secret, true⟩)

def isServing (c : ServerConnection) : Bool := c.isOpen && c.session.isEncrypted

namespace Turn

def stay (server : Server) (c : ServerConnection) (session : Session) (draws : Draws) : Turn :=
  ⟨server, { c with session }, draws, []⟩

def finish (t : Turn) : Turn :=
  { t with
    server := { t.server with
        peers := (t.server.peers.remove t.connection.id).close t.connection.mailbox
      }.publish (.peerDisconnected t.connection.id)
    connection := { t.connection with isOpen := false } }

def welcome (t : Turn) : Turn :=
  if t.connection.isServing then
    let id := t.connection.id
    let clientId := t.connection.session.clientId?.getD ""
    { t with
      server := { t.server with
          peers := (t.server.peers.setClientId id clientId).markEncrypted id
        }.publish (.peerEncrypted id clientId) }
  else t

end Turn

variable (suite : CipherSuite)

def write (server : Server) (c : ServerConnection) (session : Session) (draws : Draws) (ps : List Packet) : Turn :=
  match session.encodeAll suite ps with
  | (session, frames, .ok ()) => ⟨server, { c with session }, draws, frames⟩
  | (session, frames, .error _) => Turn.finish ⟨server, { c with session }, draws, frames⟩

def shakeHands (server : Server) (c : ServerConnection) (session : Session) (draws : Draws) (now : UInt64)
    (p : Packet) : Turn :=
  match p with
  | .handShake body =>
    match session.acceptHandshake suite draws body with
    | ((session, draws), .error _) => (Turn.stay server c session draws).finish
    | ((session, draws), .ok hello) => c.write suite server session draws [.hello hello]
  | .keyExchange body =>
    match session.acceptKeyExchange suite now body with
    | (session, .error _) => (Turn.stay server c session draws).finish
    | (session, .ok done) => (c.write suite server session draws [.encryptComplete done]).welcome
  | _ => (Turn.stay server c session.fail draws).finish

/-- A packet from an encrypted kiosk. One that is not for the server, or that
is refused, is dropped, unless the refusal ends the connection. -/
def serve (server : Server) (c : ServerConnection) (session : Session) (draws : Draws) (p : Packet) : Turn :=
  if p.kind.isAcceptedBy .server then
    match server.handle c.id p with
    | (server, .ok replies) => c.write suite server session draws replies
    | (server, .error e) =>
      let t := Turn.stay server c session draws
      if e.isFatal then t.finish else t
  else Turn.stay server c session draws

/-- A frame arrives. One that does not decode is dropped, unless the session
fails over it. -/
def receive (server : Server) (c : ServerConnection) (draws : Draws) (now : UInt64) (frame : Bytes) : Turn :=
  if c.isOpen then
    match c.session.decode suite frame with
    | (session, .error e) =>
      let t := Turn.stay server c session draws
      if e.isFatal then t.finish else t
    | (session, .ok p) =>
      if c.session.isEncrypted then c.serve suite server session draws p
      else c.shakeHands suite server session draws now p
  else ⟨server, c, draws, []⟩

def forward (server : Server) (c : ServerConnection) (draws : Draws) : Turn :=
  if c.isServing then
    match server.peers.take? c.mailbox with
    | none => ⟨server, c, draws, []⟩
    | some (p, peers) => c.write suite { server with peers } c.session draws [p]
  else ⟨server, c, draws, []⟩

def lose (server : Server) (c : ServerConnection) (draws : Draws) : Turn :=
  let t : Turn := ⟨server, c, draws, []⟩
  if c.isOpen then t.finish else t

def expire (server : Server) (c : ServerConnection) (draws : Draws) : Turn :=
  if c.isOpen && !c.session.isEncrypted then (Turn.stay server c c.session.fail draws).finish
  else ⟨server, c, draws, []⟩

/-- The server stops. A connection in its handshake goes on until its time is
over. -/
def stop (server : Server) (c : ServerConnection) (draws : Draws) : Turn :=
  let t : Turn := ⟨server, c, draws, []⟩
  if c.isServing then t.finish else t

end ServerConnection

end OrderDesk
