import OrderDesk.Crypto.Key

/-!
# The stream cipher ChaCha20

A message is combined with a stream of blocks that the key, the nonce and the
number of the block determine. Combining twice gives the message back.
-/

namespace OrderDesk

namespace Bytes

def xor (bs stream : Bytes) : Bytes := bs.zipWith (· ^^^ ·) stream

theorem length_xor {bs stream : Bytes} (h : bs.length ≤ stream.length) : (bs.xor stream).length = bs.length := by
  simp [xor, Nat.min_eq_left h]

theorem xor_xor {bs stream : Bytes} (h : bs.length ≤ stream.length) : (bs.xor stream).xor stream = bs := by
  induction bs generalizing stream with
  | nil => rfl
  | cons b bs ih =>
    cases stream with
    | nil => simp at h
    | cons s stream =>
      simp only [List.length_cons, Nat.add_le_add_iff_right] at h
      simp only [xor, List.zipWith_cons_cons, List.cons.injEq] at ih ⊢
      exact ⟨by rw [UInt8.xor_assoc, UInt8.xor_self, UInt8.xor_zero], ih h⟩

end Bytes

namespace ChaCha20

abbrev State := Vector UInt32 16

def rotate (x n : UInt32) : UInt32 := (x <<< n) ||| (x >>> (32 - n))

def wordAt (bs : Bytes) (i : Nat) : UInt32 := UInt32.ofNat (Bytes.toNatLE ((bs.drop (4 * i)).take 4))

def initial (key : Key) (nonce : Nonce) (counter : Nat) : State :=
  let key (i : Nat) := wordAt key.toBytes i
  let nonce (i : Nat) := wordAt nonce.toList i
  #v[0x61707865, 0x3320646e, 0x79622d32, 0x6b206574, key 0, key 1, key 2, key 3, key 4, key 5, key 6, key 7,
    UInt32.ofNat counter, nonce 0, nonce 1, nonce 2]

def quarterRound (s : State) (i j k l : Fin 16) : State :=
  let (a, b, c, d) := (s[i], s[j], s[k], s[l])
  let a := a + b
  let d := rotate (d ^^^ a) 16
  let c := c + d
  let b := rotate (b ^^^ c) 12
  let a := a + b
  let d := rotate (d ^^^ a) 8
  let c := c + d
  let b := rotate (b ^^^ c) 7
  (((s.set i a).set j b).set k c).set l d

def doubleRound (s : State) : State :=
  let s := quarterRound s 0 4 8 12
  let s := quarterRound s 1 5 9 13
  let s := quarterRound s 2 6 10 14
  let s := quarterRound s 3 7 11 15
  let s := quarterRound s 0 5 10 15
  let s := quarterRound s 1 6 11 12
  let s := quarterRound s 2 7 8 13
  quarterRound s 3 4 9 14

def block (key : Key) (nonce : Nonce) (counter : Nat) : Bytes :=
  let start := initial key nonce counter
  let mixed := (List.range 10).foldl (fun s _ => doubleRound s) start
  (start.zipWith (· + ·) mixed).toList.flatMap fun w => Bytes.ofNatLE 4 w.toNat

theorem length_block (key : Key) (nonce : Nonce) (counter : Nat) : (block key nonce counter).length = 64 := by
  rw [block, Bytes.length_flatMap fun w : UInt32 => Bytes.length_ofNatLE 4 w.toNat]
  simp

/-- The stream from block one on, long enough for a message of the given
length. -/
def stream (key : Key) (nonce : Nonce) (length : Nat) : Bytes :=
  (List.range (length / 64 + 1)).flatMap fun i => block key nonce (i + 1)

theorem length_stream (key : Key) (nonce : Nonce) (length : Nat) :
    (stream key nonce length).length = 64 * (length / 64 + 1) := by
  rw [stream, Bytes.length_flatMap fun i => length_block key nonce (i + 1), List.length_range]

def apply (key : Key) (nonce : Nonce) (message : Bytes) : Bytes := message.xor (stream key nonce message.length)

theorem length_le_stream (key : Key) (nonce : Nonce) (length : Nat) : length ≤ (stream key nonce length).length := by
  rw [length_stream]
  omega

@[simp] theorem length_apply (key : Key) (nonce : Nonce) (message : Bytes) :
    (apply key nonce message).length = message.length :=
  Bytes.length_xor (length_le_stream key nonce message.length)

@[simp] theorem apply_apply (key : Key) (nonce : Nonce) (message : Bytes) :
    apply key nonce (apply key nonce message) = message := by
  rw [apply, length_apply]
  exact Bytes.xor_xor (length_le_stream key nonce message.length)

end ChaCha20

end OrderDesk
