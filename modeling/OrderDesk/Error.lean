import OrderDesk.Packet.Error
import OrderDesk.Registry.Error
import OrderDesk.Session.Error

/-!
# Errors of a node

Every error belongs to one of four layers. An error of the transport or of the
session ends the connection on which it happens; an error of a packet or of a
registry costs one packet.
-/

namespace OrderDesk

inductive TransportError
  | connectionClosed (reason : String)
  | sendFailed (reason : String)
  | receiveFailed (reason : String)
  | acceptFailed (reason : String)
  | connectFailed (address reason : String)
  | disconnected
  | shutdown
  deriving DecidableEq, Repr

def TransportError.message : TransportError → String
  | connectionClosed reason => "connection closed: " ++ reason
  | sendFailed reason => "send failed: " ++ reason
  | receiveFailed reason => "receive failed: " ++ reason
  | acceptFailed reason => "accept failed: " ++ reason
  | connectFailed address reason => "connect to " ++ address ++ " failed: " ++ reason
  | disconnected => "no live channel"
  | shutdown => "transport shut down"

def TransportError.closedByPeer : TransportError := .connectionClosed "peer closed the connection"

inductive NodeError
  | transport (error : TransportError)
  | protocol (error : ProtocolError)
  | session (error : SessionError)
  | registry (error : RegistryError)
  deriving DecidableEq, Repr

namespace NodeError

def message : NodeError → String
  | transport e => e.message
  | protocol e => e.message
  | session e => e.message
  | registry e => e.message

/-- Whether the error ends the connection. -/
def isFatal : NodeError → Bool
  | transport _ | session _ => true
  | protocol _ | registry _ => false

end NodeError

end OrderDesk
