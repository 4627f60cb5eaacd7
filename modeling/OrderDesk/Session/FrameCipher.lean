import OrderDesk.Crypto.CipherSuite
import OrderDesk.Session.Error

/-!
# The cipher of a session's frames

Each direction has a key and a counter of its own. A frame is sealed under the
number of the frames before it in its direction, so a frame that is repeated,
left out or moved does not open.
-/

namespace OrderDesk

structure FrameCipher where
  sendKey : Key
  receiveKey : Key
  sent : UInt64
  received : UInt64
  deriving DecidableEq, Repr

namespace FrameCipher

variable (suite : CipherSuite)

def label : Side → Bytes
  | .client => Bytes.ofString "kiosk v1 c2s"
  | .server => Bytes.ofString "kiosk v1 s2c"

def frameKey (sessionKey : Key) (sender : Side) : Key := suite.derive sessionKey.toBytes [] (label sender)

def start (side : Side) (sessionKey : Key) : FrameCipher where
  sendKey := frameKey suite sessionKey side
  receiveKey := frameKey suite sessionKey side.other
  sent := 0
  received := 0

def succ? (n : UInt64) : Option UInt64 := if n.toNat + 1 < UInt64.size then some (n + 1) else none

/-- The next frame. Once the counter cannot go on no frame is let out. -/
def sealFrame (c : FrameCipher) (message : Bytes) : Except SessionError (Bytes × FrameCipher) :=
  match succ? c.sent with
  | none => .error (.crypto .sendCounterExhausted)
  | some sent => .ok (suite.sealed c.sendKey (.ofCounter c.sent) [] message, { c with sent })

def tagLength : Nat := 16

def openFrame (c : FrameCipher) (frame : Bytes) : Except SessionError (Bytes × FrameCipher) :=
  if frame.length < tagLength then .error (.protocolViolation .shortFrame)
  else
    match suite.unsealed? c.receiveKey (.ofCounter c.received) [] frame with
    | none => .error (.protocolViolation (.unauthenticFrame c.received.toNat))
    | some message =>
      match succ? c.received with
      | none => .error (.crypto .receiveCounterExhausted)
      | some received => .ok (message, { c with received })

end FrameCipher

end OrderDesk
