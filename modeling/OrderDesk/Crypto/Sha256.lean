import OrderDesk.Crypto.Key

/-!
# SHA-256

The hash of a byte string: the padded message goes block by block through 64
rounds that mix eight words.
-/

namespace OrderDesk.Sha256

/-- The fractional parts of the cube roots of the first 64 primes. -/
def constants : List UInt32 :=
  [0x428a2f98, 0x71374491, 0xb5c0fbcf, 0xe9b5dba5, 0x3956c25b, 0x59f111f1, 0x923f82a4, 0xab1c5ed5,
    0xd807aa98, 0x12835b01, 0x243185be, 0x550c7dc3, 0x72be5d74, 0x80deb1fe, 0x9bdc06a7, 0xc19bf174,
    0xe49b69c1, 0xefbe4786, 0x0fc19dc6, 0x240ca1cc, 0x2de92c6f, 0x4a7484aa, 0x5cb0a9dc, 0x76f988da,
    0x983e5152, 0xa831c66d, 0xb00327c8, 0xbf597fc7, 0xc6e00bf3, 0xd5a79147, 0x06ca6351, 0x14292967,
    0x27b70a85, 0x2e1b2138, 0x4d2c6dfc, 0x53380d13, 0x650a7354, 0x766a0abb, 0x81c2c92e, 0x92722c85,
    0xa2bfe8a1, 0xa81a664b, 0xc24b8b70, 0xc76c51a3, 0xd192e819, 0xd6990624, 0xf40e3585, 0x106aa070,
    0x19a4c116, 0x1e376c08, 0x2748774c, 0x34b0bcb5, 0x391c0cb3, 0x4ed8aa4a, 0x5b9cca4f, 0x682e6ff3,
    0x748f82ee, 0x78a5636f, 0x84c87814, 0x8cc70208, 0x90befffa, 0xa4506ceb, 0xbef9a3f7, 0xc67178f2]

abbrev State := Vector UInt32 8

/-- The fractional parts of the square roots of the first eight primes. -/
def initial : State :=
  #v[0x6a09e667, 0xbb67ae85, 0x3c6ef372, 0xa54ff53a, 0x510e527f, 0x9b05688c, 0x1f83d9ab, 0x5be0cd19]

def rotate (x n : UInt32) : UInt32 := (x >>> n) ||| (x <<< (32 - n))

def word (bs : Bytes) : UInt32 := bs.foldl (fun w b => (w <<< 8) ||| b.toUInt32) 0

def wordBytes (w : UInt32) : Bytes := [(w >>> 24).toUInt8, (w >>> 16).toUInt8, (w >>> 8).toUInt8, w.toUInt8]

theorem length_wordBytes (w : UInt32) : (wordBytes w).length = 4 := rfl

def schedule (block : Bytes) : List UInt32 :=
  let own := (List.range 16).map fun i => word ((block.drop (4 * i)).take 4)
  let extend (ws : Array UInt32) (t : Nat) :=
    let w := ws.getD (t - 15) 0
    let w' := ws.getD (t - 2) 0
    let mixed := rotate w 7 ^^^ rotate w 18 ^^^ (w >>> 3)
    let mixed' := rotate w' 17 ^^^ rotate w' 19 ^^^ (w' >>> 10)
    ws.push (ws.getD (t - 16) 0 + mixed + ws.getD (t - 7) 0 + mixed')
  ((List.range' 16 48).foldl extend own.toArray).toList

def round (s : State) (constant w : UInt32) : State :=
  let (a, b, c, d) := (s.get 0, s.get 1, s.get 2, s.get 3)
  let (e, f, g, h) := (s.get 4, s.get 5, s.get 6, s.get 7)
  let choice := (e &&& f) ^^^ (~~~e &&& g)
  let majority := (a &&& b) ^^^ (a &&& c) ^^^ (b &&& c)
  let x := h + (rotate e 6 ^^^ rotate e 11 ^^^ rotate e 25) + choice + constant + w
  let y := (rotate a 2 ^^^ rotate a 13 ^^^ rotate a 22) + majority
  #v[x + y, a, b, c, d + x, e, f, g]

def compress (s : State) (block : Bytes) : State :=
  let mixed := (constants.zip (schedule block)).foldl (fun s (k, w) => round s k w) s
  s.zipWith (· + ·) mixed

/-- A one bit, zeros to the end of a block less eight bytes, and the length of
the message in bits. -/
def pad (message : Bytes) : Bytes :=
  let zeros := (55 + 64 - message.length % 64) % 64
  message ++ 0x80 :: List.replicate zeros 0 ++ (Bytes.ofNatLE 8 (8 * message.length)).reverse

def absorb (s : State) : (blocks : Nat) → Bytes → State
  | 0, _ => s
  | n + 1, bs => absorb (compress s (bs.take 64)) n (bs.drop 64)

def hash (message : Bytes) : Key :=
  let padded := pad message
  ⟨((absorb initial (padded.length / 64) padded).toList.flatMap wordBytes).toArray, by
    simp only [List.size_toArray]
    rw [Bytes.length_flatMap length_wordBytes]
    simp⟩

end OrderDesk.Sha256
