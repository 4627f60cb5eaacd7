import OrderDesk.Shape.Defect

/-!
# What is wrong with a packet
-/

namespace OrderDesk

inductive ProtocolError
  | encode (reason : String)
  | decode (defect : Defect)
  | unknownPacketId (id : String)
  | invalidMessage (reason : String)
  deriving DecidableEq, Repr

def ProtocolError.message : ProtocolError → String
  | encode reason => "encode failed: " ++ reason
  | decode (.text .malformed) => "decode failed: malformed text"
  | decode (.text .truncated) => "decode failed: text ends too soon"
  | decode (.shape m) => "decode failed: " ++ m.message
  | unknownPacketId id => "unknown packet id: " ++ id
  | invalidMessage reason => "invalid message: " ++ reason

end OrderDesk
