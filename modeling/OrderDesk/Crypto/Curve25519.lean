import OrderDesk.Crypto.Key

/-!
# Key agreement on Curve25519

A public key is the u-coordinate of a multiple of the base point of the curve
`y² = x³ + 486662 x² + x` over the field of `2 ^ 255 - 19` elements. Two
secrets agree on the u-coordinate of the product of both with the base point.
-/

namespace OrderDesk.Curve25519

/-- The number of elements, as a successor. -/
abbrev modulus : Nat := Nat.pow 2 255 - 20 + 1

abbrev Element := Fin modulus

def power (b : Element) (exponent : Nat) : Element :=
  (List.range 255).reverse.foldl (fun acc i => if exponent.testBit i then acc * acc * b else acc * acc) 1

def inverse (b : Element) : Element := power b (modulus - 2)

/-- A u-coordinate as the quotient of two elements. -/
structure Point where
  x : Element
  z : Element

namespace Point

def double (p : Point) : Point :=
  let sum := (p.x + p.z) * (p.x + p.z)
  let difference := (p.x - p.z) * (p.x - p.z)
  let e := sum - difference
  ⟨sum * difference, e * (sum + 121665 * e)⟩

/-- The sum of two points whose difference has the u-coordinate `u`. -/
def add (u : Element) (p q : Point) : Point :=
  let cross := (q.x - q.z) * (p.x + p.z)
  let cross' := (q.x + q.z) * (p.x - p.z)
  ⟨(cross + cross') * (cross + cross'), u * ((cross - cross') * (cross - cross'))⟩

def coordinate (p : Point) : Element := p.x * inverse p.z

end Point

/-- The u-coordinate of a multiple of a point. The two points of the ladder
always differ by the given one. -/
def multiple (scalar : Nat) (u : Element) : Element :=
  let step (ladder : Point × Point) (i : Nat) :=
    if scalar.testBit i then (Point.add u ladder.1 ladder.2, ladder.2.double)
    else (ladder.1.double, Point.add u ladder.1 ladder.2)
  ((List.range 255).reverse.foldl step (⟨1, 0⟩, ⟨u, 1⟩)).1.coordinate

def scalarOf (secret : Key) : Nat := secret.toNat % Nat.pow 2 254 / 8 * 8 + Nat.pow 2 254

/-- The highest bit of a public key is ignored. -/
def elementOf (publicKey : Key) : Element := Fin.ofNat modulus (publicKey.toNat % Nat.pow 2 255)

def agree (secret publicKey : Key) : Key := .ofNat (multiple (scalarOf secret) (elementOf publicKey)).val

def publicKey (secret : Key) : Key := agree secret (.ofNat 9)

end OrderDesk.Curve25519
