import OrderDesk.Session.Handshake

/-!
# The two ends of a handshake

What the kiosk wraps the server unwraps, and the nonce that the kiosk seals is
the one that the server issued. Sealing has to be undone by unsealing and adds
16 bytes; key agreement is only needed of the two secrets at hand.
-/

namespace OrderDesk

namespace CipherSuite

/-- Unsealing undoes sealing, which adds a tag. -/
structure Seals (suite : CipherSuite) : Prop where
  unsealed?_sealed : ∀ key nonce associated message,
    suite.unsealed? key nonce associated (suite.sealed key nonce associated message) = some message
  length_sealed : ∀ key nonce associated message,
    (suite.sealed key nonce associated message).length = message.length + 16

theorem standard_seals : standard.Seals := ⟨Sealing.unsealed?_sealed, Sealing.length_sealed⟩

/-- Each of two secrets agrees with the other's public key on the same key. -/
def Agrees (suite : CipherSuite) (a b : Key) : Prop :=
  suite.agree a (suite.publicKey b) = suite.agree b (suite.publicKey a)

instance (suite : CipherSuite) (a b : Key) : Decidable (suite.Agrees a b) :=
  inferInstanceAs (Decidable (suite.agree a (suite.publicKey b) = suite.agree b (suite.publicKey a)))

end CipherSuite

namespace KeyTransport

variable {suite : CipherSuite}

theorem keyOfBytes_toBytes (k : Key) : keyOfBytes k.toBytes = .ok k := by simp [keyOfBytes]

theorem length_wrapped (hs : suite.Seals) (ephemeral serverPublic sessionKey : Key) :
    (wrapped suite ephemeral serverPublic sessionKey).length = wrappedLength := by
  simp [wrapped, wrappedLength, hs.length_sealed]

theorem unwrap_append {secret ephemeralPublic : Key} {text : Bytes}
    (h : (ephemeralPublic.toBytes ++ text).length = wrappedLength) :
    unwrap suite secret (ephemeralPublic.toBytes ++ text) =
      match suite.unsealed? (wrapKey suite (suite.agree secret ephemeralPublic) ephemeralPublic (suite.publicKey secret))
        (.ofCounter 0) [] text with
      | some sessionKey => keyOfBytes sessionKey
      | none => .error (.protocolViolation .wrappedKey) := by
  have htake : (ephemeralPublic.toBytes ++ text).take 32 = ephemeralPublic.toBytes := by simp
  have hdrop : (ephemeralPublic.toBytes ++ text).drop 32 = text := by simp
  unfold unwrap
  rw [htake, hdrop, if_neg fun hne => hne h, keyOfBytes_toBytes]
  rfl

theorem unwrap_wrapped (hs : suite.Seals) {ephemeral secret : Key} (ha : suite.Agrees ephemeral secret)
    (sessionKey : Key) :
    unwrap suite secret (wrapped suite ephemeral (suite.publicKey secret) sessionKey) = .ok sessionKey := by
  have hlength := length_wrapped hs ephemeral (suite.publicKey secret) sessionKey
  rw [wrapped, unwrap_append hlength, ha, hs.unsealed?_sealed]
  exact keyOfBytes_toBytes sessionKey

theorem confirm_signedNonce (hs : suite.Seals) (sessionKey nonce : Key) :
    confirm suite sessionKey nonce (signedNonce suite sessionKey nonce.toBytes) = .ok () := by
  simp [confirm, signedNonce, hs.unsealed?_sealed]

end KeyTransport

namespace Session

/-- A kiosk and a server that hand each other the five packets of a handshake,
in order and unchanged. -/
def shakeHands (suite : CipherSuite) (clientId : String) (secret : Key) (clientDraws serverDraws : Draws)
    (now : UInt64) : Except SessionError (Session × Session) := do
  let handShake ← (client clientId).begin
  let ((atServer, _), hello) := (server secret).acceptHandshake suite serverDraws handShake
  let ((atClient, _), keyExchange) := (client clientId).acceptHello suite clientDraws (← hello)
  let (atServer, encryptComplete) := atServer.acceptKeyExchange suite now (← keyExchange)
  let (atClient, confirmed) := atClient.acceptEncryptComplete (← encryptComplete)
  confirmed
  return (atClient, atServer)

variable {suite : CipherSuite}

theorem sessionKeyOf_wrapped (hs : suite.Seals) {ephemeral secret : Key} (ha : suite.Agrees ephemeral secret)
    (sessionKey nonce : Key) :
    sessionKeyOf suite secret nonce
      ⟨KeyTransport.wrapped suite ephemeral (suite.publicKey secret) sessionKey,
        KeyTransport.signedNonce suite sessionKey nonce.toBytes⟩ = .ok sessionKey := by
  simp [sessionKeyOf, KeyTransport.unwrap_wrapped hs ha, KeyTransport.confirm_signedNonce hs, bind, Except.bind, pure,
    Except.pure]

theorem shakeHands_eq (hs : suite.Seals) (clientId : String) (secret : Key) (clientDraws serverDraws : Draws)
    (now : UInt64) (ha : suite.Agrees clientDraws.rest.next secret) :
    shakeHands suite clientId secret clientDraws serverDraws now =
      .ok (⟨.client clientId, .encrypted (.start suite .client clientDraws.next)⟩,
        ⟨.server secret (some clientId), .encrypted (.start suite .server clientDraws.next)⟩) := by
  simp [shakeHands, client, server, begin, acceptHandshake, acceptHello, acceptKeyExchange, acceptEncryptComplete,
    KeyTransport.nonceLength, KeyTransport.keyOfBytes_toBytes, sessionKeyOf_wrapped hs ha, bind, Except.bind, pure,
    Except.pure]

end Session

end OrderDesk
