import OrderDesk.Bytes

/-!
# The authenticator Poly1305

The tag of a message is a polynomial in a secret point whose coefficients are
the blocks of the message, modulo `2 ^ 130 - 5`, plus a secret pad.
-/

namespace OrderDesk.Poly1305

def blocks : Bytes → List Bytes
  | [] => []
  | b :: bs => (b :: bs).take 16 :: blocks ((b :: bs).drop 16)
termination_by bs => bs.length
decreasing_by
  simp only [List.length_drop, List.length_cons]
  omega

/-- The coefficient of a block: its number with a one behind its last byte. -/
def coefficient (block : Bytes) : Nat := block.toNatLE + Nat.pow 256 block.length

def clamp (r : Nat) : Nat := r &&& 0x0ffffffc0ffffffc0ffffffc0fffffff

def tag (key message : Bytes) : Bytes :=
  let point := clamp (Bytes.toNatLE (key.take 16))
  let pad := Bytes.toNatLE ((key.drop 16).take 16)
  let value := (blocks message).foldl (fun acc block => (acc + coefficient block) * point % (Nat.pow 2 130 - 5)) 0
  Bytes.ofNatLE 16 (value + pad)

@[simp] theorem length_tag (key message : Bytes) : (tag key message).length = 16 := Bytes.length_ofNatLE 16 _

end OrderDesk.Poly1305
