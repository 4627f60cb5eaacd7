import OrderDesk.Packet.Kind
import OrderDesk.Text.Decimal

/-!
# What goes wrong in a session

A session fails for good when its peer breaks the rules of the handshake or
sends a frame that does not open.
-/

namespace OrderDesk

/-- How far a session has come. The handshake goes through the states in
order; a failed session stays failed. -/
inductive SessionState
  | unencrypted
  | helloSent
  | keyExchanged
  | encrypted
  | failed
  deriving DecidableEq, Repr

namespace SessionState

def all : List SessionState := [unencrypted, helloSent, keyExchanged, encrypted, failed]

def name : SessionState → String
  | unencrypted => "unencrypted"
  | helloSent => "hello_sent"
  | keyExchanged => "key_exchanged"
  | encrypted => "encrypted"
  | failed => "failed"

def label : SessionState → String
  | unencrypted => "Unencrypted"
  | helloSent => "HelloSent"
  | keyExchanged => "KeyExchanged"
  | encrypted => "Encrypted"
  | failed => "Failed"

def rank : SessionState → Nat
  | unencrypted => 0
  | helloSent => 1
  | keyExchanged => 2
  | encrypted => 3
  | failed => 4

end SessionState

inductive Violation
  | outOfPlace (kind : PacketKind) (side : Side) (state : SessionState)
  | afterHandshake (kind : PacketKind)
  | nonceLength (length : Nat)
  | noNonceIssued
  | keyLength (length : Nat)
  | wrappedKeyLength (length : Nat)
  | wrappedKey
  | sealedNonce
  | nonceMismatch
  | shortFrame
  /-- A frame that does not open, with the number of frames opened before. -/
  | unauthenticFrame (count : Nat)
  | sessionFailed
  deriving DecidableEq, Repr

def Violation.message : Violation → String
  | outOfPlace kind side state => kind.id ++ " on " ++ side.name ++ " side in state " ++ state.name
  | afterHandshake kind => kind.id ++ " after handshake completed"
  | nonceLength n => "hello nonce has " ++ Decimal.render n ++ " bytes"
  | noNonceIssued => "no nonce issued"
  | keyLength n => "expected 32 bytes, got " ++ Decimal.render n
  | wrappedKeyLength n => "wrapped session key has " ++ Decimal.render n ++ " bytes"
  | wrappedKey => "session key failed to unwrap"
  | sealedNonce => "sealed value failed authentication"
  | nonceMismatch => "nonce mismatch"
  | shortFrame => "frame shorter than tag"
  | unauthenticFrame n => "frame " ++ Decimal.render n ++ " failed authentication"
  | sessionFailed => "session already failed"

inductive CipherFault
  | serverKeyMissing
  | sendCounterExhausted
  | receiveCounterExhausted
  deriving DecidableEq, Repr

def CipherFault.message : CipherFault → String
  | serverKeyMissing => "server key pair missing"
  | sendCounterExhausted => "send counter exhausted"
  | receiveCounterExhausted => "receive counter exhausted"

inductive SessionError
  | protocolViolation (violation : Violation)
  | illegalState (state : SessionState) (kind : PacketKind)
  | handshakeTimeout
  | crypto (fault : CipherFault)
  deriving DecidableEq, Repr

namespace SessionError

def violationMessage (reason : String) : String := "protocol violation: " ++ reason

def cryptoMessage (reason : String) : String := "crypto failure: " ++ reason

def message : SessionError → String
  | protocolViolation v => violationMessage v.message
  | illegalState state kind => "packet " ++ kind.id ++ " not allowed in state " ++ state.name
  | handshakeTimeout => "handshake timed out"
  | crypto fault => cryptoMessage fault.message

end SessionError

end OrderDesk
