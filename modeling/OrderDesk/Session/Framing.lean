import OrderDesk.Error
import OrderDesk.Packet.Codec
import OrderDesk.Session.Basic

/-!
# Packets in frames

A packet is encoded and sealed to go out; a frame that comes in is opened,
decoded, and the packet checked against the state of the session. A frame that
opens but does not decode costs that frame alone.
-/

namespace OrderDesk.Session

variable (suite : CipherSuite)

def encode (s : Session) (p : Packet) : Session × Except NodeError Bytes :=
  let (s, frame) := s.sealFrame suite p.kind p.encode
  (s, frame.mapError .session)

def encodeAll (s : Session) : List Packet → Session × List Bytes × Except NodeError Unit
  | [] => (s, [], .ok ())
  | p :: ps =>
    match s.encode suite p with
    | (s, .error e) => (s, [], .error e)
    | (s, .ok frame) =>
      let (s, frames, outcome) := encodeAll s ps
      (s, frame :: frames, outcome)

/-- The packet of a frame. A packet that may not travel now fails the session. -/
def decode (s : Session) (frame : Bytes) : Session × Except NodeError Packet :=
  match s.openFrame suite frame with
  | (s, .error e) => (s, .error (.session e))
  | (s, .ok message) =>
    match Packet.decode message with
    | .error e => (s, .error (.protocol e))
    | .ok p =>
      match s.checkAllowed p.kind with
      | .error e => (s.fail, .error (.session e))
      | .ok () => (s, .ok p)

end OrderDesk.Session
