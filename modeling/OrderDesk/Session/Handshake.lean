import OrderDesk.Draws
import OrderDesk.Packet.Basic
import OrderDesk.Session.Basic
import OrderDesk.Session.KeyTransport

/-!
# The handshake

The kiosk announces itself, the server answers with its public key and a
nonce, the kiosk sends a wrapped session key and the nonce sealed under it, and
the server confirms. Each step is taken by one side in one state; a step that
goes wrong fails the session.
-/

namespace OrderDesk.Session

variable (suite : CipherSuite)

def outOfPlace (s : Session) (kind : PacketKind) : SessionError :=
  .protocolViolation (.outOfPlace kind s.side s.state)

def begin (s : Session) : Except SessionError HandShake :=
  match s.party, s.phase with
  | .client clientId, .unencrypted => .ok ⟨clientId⟩
  | _, _ => .error (s.outOfPlace .handShake)

/-- The server takes the name of the kiosk and issues a nonce, which is drawn
once the packet is in its place. -/
def acceptHandshake (s : Session) (draws : Draws) (p : HandShake) : (Session × Draws) × Except SessionError Hello :=
  match s.party, s.phase with
  | .server secret _, .unencrypted =>
    ((⟨.server secret (some p.clientId), .helloSent draws.next⟩, draws.rest),
      .ok ⟨(suite.publicKey secret).toBytes, draws.next.toBytes⟩)
  | _, _ => ((s.fail, draws), .error (s.outOfPlace .handShake))

/-- The kiosk draws a session key, wraps it for the server and seals the nonce
under it. The ephemeral secret is drawn once the public key is known to be well
formed. -/
def acceptHello (s : Session) (draws : Draws) (p : Hello) : (Session × Draws) × Except SessionError KeyExchange :=
  match s.party, s.phase with
  | .client _, .unencrypted =>
    if p.nonce.length ≠ KeyTransport.nonceLength then
      ((s.fail, draws), .error (.protocolViolation (.nonceLength p.nonce.length)))
    else
      let sessionKey := draws.next
      match KeyTransport.keyOfBytes p.publicKey with
      | .error e => ((s.fail, draws.rest), .error e)
      | .ok serverPublic =>
        let ephemeral := draws.rest.next
        (({ s with phase := .keyExchanged (.start suite .client sessionKey) }, draws.rest.rest),
          .ok ⟨KeyTransport.wrapped suite ephemeral serverPublic sessionKey,
            KeyTransport.signedNonce suite sessionKey p.nonce⟩)
  | _, _ => ((s.fail, draws), .error (s.outOfPlace .hello))

/-- What a server that issued a nonce makes of a key exchange: the session key
that was wrapped, if the nonce is sealed under it. -/
def sessionKeyOf (secret nonce : Key) (p : KeyExchange) : Except SessionError Key := do
  let sessionKey ← KeyTransport.unwrap suite secret p.encryptedSessionKey
  KeyTransport.confirm suite sessionKey nonce p.signedNonce
  return sessionKey

/-- The server unwraps the session key and checks the sealed nonce. Right or
wrong, the nonce is used up. -/
def acceptKeyExchange (s : Session) (now : UInt64) (p : KeyExchange) : Session × Except SessionError EncryptComplete :=
  match s.party, s.phase with
  | .server secret _, .helloSent nonce =>
    match sessionKeyOf suite secret nonce p with
    | .error e => (s.fail, .error e)
    | .ok sessionKey => ({ s with phase := .encrypted (.start suite .server sessionKey) }, .ok ⟨now⟩)
  | _, _ => (s.fail, .error (s.outOfPlace .keyExchange))

def acceptEncryptComplete (s : Session) (_ : EncryptComplete) : Session × Except SessionError Unit :=
  match s.party, s.phase with
  | .client _, .keyExchanged cipher => ({ s with phase := .encrypted cipher }, .ok ())
  | _, _ => (s.fail, .error (s.outOfPlace .encryptComplete))

end OrderDesk.Session
