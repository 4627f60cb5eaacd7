import OrderDesk.Crypto.CipherSuite
import OrderDesk.Session.Error

/-!
# How a session key travels

The kiosk picks the session key and wraps it for the holder of the server's
public key, under a key that only the two can derive. It proves that it holds
the session key by sealing the server's nonce under a key derived from it.
Each of these keys seals one message, so the nonce of the message is zero.
-/

namespace OrderDesk.KeyTransport

variable (suite : CipherSuite)

def wrapLabel : Bytes := Bytes.ofString "kiosk v1 wrap"

def confirmLabel : Bytes := Bytes.ofString "kiosk v1 confirm"

def wrapKey (shared ephemeralPublic serverPublic : Key) : Key :=
  suite.derive shared.toBytes (ephemeralPublic.toBytes ++ serverPublic.toBytes) wrapLabel

/-- A session key wrapped for the server, behind the public key that goes with
the kiosk's ephemeral secret. -/
def wrapped (ephemeral serverPublic sessionKey : Key) : Bytes :=
  let ephemeralPublic := suite.publicKey ephemeral
  let key := wrapKey suite (suite.agree ephemeral serverPublic) ephemeralPublic serverPublic
  ephemeralPublic.toBytes ++ suite.sealed key (.ofCounter 0) [] sessionKey.toBytes

def keyOfBytes (bs : Bytes) : Except SessionError Key :=
  match Key.ofBytes? bs with
  | some k => .ok k
  | none => .error (.protocolViolation (.keyLength bs.length))

def wrappedLength : Nat := 80

def unwrap (secret : Key) (wrapped : Bytes) : Except SessionError Key := do
  if wrapped.length ≠ wrappedLength then
    throw (.protocolViolation (.wrappedKeyLength wrapped.length))
  let ephemeralPublic ← keyOfBytes (wrapped.take 32)
  let key := wrapKey suite (suite.agree secret ephemeralPublic) ephemeralPublic (suite.publicKey secret)
  match suite.unsealed? key (.ofCounter 0) [] (wrapped.drop 32) with
  | some sessionKey => keyOfBytes sessionKey
  | none => throw (.protocolViolation .wrappedKey)

def nonceLength : Nat := 32

def confirmKey (sessionKey : Key) : Key := suite.derive sessionKey.toBytes [] confirmLabel

/-- The proof that the session key is known, for one nonce. -/
def signedNonce (sessionKey : Key) (nonce : Bytes) : Bytes :=
  suite.sealed (confirmKey suite sessionKey) (.ofCounter 0) nonce nonce

def confirm (sessionKey issued : Key) (signed : Bytes) : Except SessionError Unit :=
  match suite.unsealed? (confirmKey suite sessionKey) (.ofCounter 0) issued.toBytes signed with
  | none => .error (.protocolViolation .sealedNonce)
  | some returned => if returned.same issued.toBytes then .ok () else .error (.protocolViolation .nonceMismatch)

end OrderDesk.KeyTransport
