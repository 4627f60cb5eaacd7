import OrderDesk.Crypto.Sha256

/-!
# Deriving keys

A key is derived from secret material, a salt and a label that names its
purpose: keyed hashing draws a uniform secret from the material and the salt
first, and then the key from that secret and the label.
-/

namespace OrderDesk.KeyDerivation

/-- The keyed hash of a message (HMAC). -/
def keyedHash (key message : Bytes) : Key :=
  let short := if key.length ≤ 64 then key else (Sha256.hash key).toBytes
  let padded := short ++ List.replicate (64 - short.length) 0
  Sha256.hash (padded.map (· ^^^ 0x5c) ++ (Sha256.hash (padded.map (· ^^^ 0x36) ++ message)).toBytes)

/-- The first 32 bytes that material, salt and label expand to (HKDF). -/
def derive (material salt label : Bytes) : Key := keyedHash (keyedHash salt material).toBytes (label ++ [1])

end OrderDesk.KeyDerivation
