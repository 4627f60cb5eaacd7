/-!
# Kinds of packet

The table of packets: each kind has a fixed id on the wire and fixed sides
that may receive it. Four kinds make up the handshake and may travel before a
session is encrypted.
-/

namespace OrderDesk

inductive Side
  | client
  | server
  deriving DecidableEq, Hashable, Repr

namespace Side

def name : Side → String
  | client => "client"
  | server => "server"

def label : Side → String
  | client => "Client"
  | server => "Server"

def all : List Side := [client, server]

def other : Side → Side
  | client => server
  | server => client

end Side

inductive PacketKind
  | handShake
  | hello
  | keyExchange
  | encryptComplete
  | requestData
  | responseData
  | dataAdded
  | dataDeleted
  | orderStatusChanged
  | orderUpdated
  deriving DecidableEq, Repr

namespace PacketKind

def all : List PacketKind :=
  [handShake, hello, keyExchange, encryptComplete, requestData, responseData, dataAdded, dataDeleted,
    orderStatusChanged, orderUpdated]

def id : PacketKind → String
  | handShake => "handshake_c2s"
  | hello => "hello_s2c"
  | keyExchange => "key_c2s"
  | encryptComplete => "encrypt_complete_s2c"
  | requestData => "request_data"
  | responseData => "response_data"
  | dataAdded => "data_added_c2s"
  | dataDeleted => "data_deleted_c2s"
  | orderStatusChanged => "order_status_changed"
  | orderUpdated => "order_updated_s2c"

def targets : PacketKind → List Side
  | handShake | keyExchange | dataAdded | dataDeleted => [.server]
  | hello | encryptComplete | orderUpdated => [.client]
  | requestData | responseData | orderStatusChanged => [.client, .server]

def isAcceptedBy (kind : PacketKind) (side : Side) : Bool := side ∈ kind.targets

/-- The kinds that may travel before the session is encrypted. -/
def isHandshake : PacketKind → Bool
  | handShake | hello | keyExchange | encryptComplete => true
  | _ => false

/-- The kinds that are never sealed. -/
def travelsInClear : PacketKind → Bool
  | handShake | hello | keyExchange => true
  | _ => false

def ofId? (id : String) : Option PacketKind := all.find? (·.id = id)

theorem ofId?_id (kind : PacketKind) : ofId? kind.id = some kind := by cases kind <;> decide

end PacketKind

end OrderDesk
