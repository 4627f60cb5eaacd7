import OrderDesk.Crypto.Curve25519
import OrderDesk.Crypto.KeyDerivation
import OrderDesk.Crypto.Sealing

/-!
# Cipher suites

The four primitives that a session is built from: agreeing on a key, deriving
keys, and sealing and unsealing messages. The laws that a session relies on
are stated apart from any implementation.
-/

namespace OrderDesk

structure CipherSuite where
  publicKey : (secret : Key) → Key
  /-- The key on which a secret and another's public key agree. -/
  agree : (secret publicKey : Key) → Key
  derive : (material salt label : Bytes) → Key
  sealed : (key : Key) → (nonce : Nonce) → (associated message : Bytes) → Bytes
  /-- The message, if its sealed form is authentic. -/
  unsealed? : (key : Key) → (nonce : Nonce) → (associated sealed : Bytes) → Option Bytes

namespace CipherSuite

def standard : CipherSuite where
  publicKey := Curve25519.publicKey
  agree := Curve25519.agree
  derive := KeyDerivation.derive
  sealed := Sealing.sealed
  unsealed? := Sealing.unsealed?

end CipherSuite

end OrderDesk
