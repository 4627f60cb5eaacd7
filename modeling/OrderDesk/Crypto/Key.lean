import OrderDesk.Bytes

/-!
# Keys

Every key has 32 bytes: secret and public keys, session keys, and the keys
that are derived from them. The nonce of a handshake has the same size. A
message is sealed under a nonce of 12 bytes.
-/

namespace OrderDesk

abbrev Key := Vector UInt8 32

namespace Key

def toBytes (k : Key) : Bytes := k.toList

def ofBytes? (bs : Bytes) : Option Key :=
  if h : bs.length = 32 then some ⟨bs.toArray, by simpa using h⟩ else none

def toNat (k : Key) : Nat := Bytes.toNatLE k.toBytes

/-- The key that spells a number below `2 ^ 256`. -/
def ofNat (n : Nat) : Key := ⟨(Bytes.ofNatLE 32 n).toArray, by simp [Bytes.length_ofNatLE]⟩

@[simp] theorem length_toBytes (k : Key) : k.toBytes.length = 32 := by simp [toBytes]

@[simp] theorem ofBytes?_toBytes (k : Key) : ofBytes? k.toBytes = some k := by
  rw [ofBytes?, dif_pos (length_toBytes k)]
  exact congrArg some (Vector.toArray_inj.1 (Array.toArray_toList ..))

theorem ofBytes?_eq_some_iff {bs : Bytes} {k : Key} : ofBytes? bs = some k ↔ k.toBytes = bs := by
  constructor
  · intro h
    unfold ofBytes? at h
    split at h
    · cases h
      simp [toBytes]
    · cases h
  · rintro rfl
    exact ofBytes?_toBytes k

end Key

abbrev Nonce := Vector UInt8 12

namespace Nonce

/-- The nonce of the message with a number: four zeros, then the number. -/
def ofCounter (n : UInt64) : Nonce :=
  ⟨(List.replicate 4 0 ++ Bytes.ofNatLE 8 n.toNat).toArray, by simp [Bytes.length_ofNatLE]⟩

theorem ofCounter_inj {m n : UInt64} : ofCounter m = ofCounter n ↔ m = n := by
  constructor
  · intro h
    have hbytes : Bytes.ofNatLE 8 m.toNat = Bytes.ofNatLE 8 n.toNat := by simpa [ofCounter] using h
    exact UInt64.toNat_inj.1 ((Bytes.ofNatLE_inj m.toNat_lt n.toNat_lt).1 hbytes)
  · intro h
    rw [h]

end Nonce

end OrderDesk
