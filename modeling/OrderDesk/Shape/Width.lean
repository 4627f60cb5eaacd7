/-!
# Widths of integers

The fixed-width integer types that a value can be declared to have, each with
its name in messages and its range. Within the range a number and its word
determine each other.
-/

namespace OrderDesk

structure Width (α : Type) where
  name : String
  low : Int
  high : Int
  ofInt : Int → α
  toInt : α → Int
  low_le : ∀ a, low ≤ toInt a
  le_high : ∀ a, toInt a ≤ high
  ofInt_toInt : ∀ a, ofInt (toInt a) = a
  toInt_ofInt : ∀ n, low ≤ n → n ≤ high → toInt (ofInt n) = n

namespace Width

def byte : Width UInt8 where
  name := "u8"
  low := 0
  high := 0xff
  ofInt n := UInt8.ofNat n.toNat
  toInt a := a.toNat
  low_le a := by omega
  le_high a := by have := a.toNat_lt; omega
  ofInt_toInt a := by simp
  toInt_ofInt n h h' := by simp only [UInt8.toNat_ofNat']; omega

def unsigned32 : Width UInt32 where
  name := "u32"
  low := 0
  high := 0xffffffff
  ofInt n := UInt32.ofNat n.toNat
  toInt a := a.toNat
  low_le a := by omega
  le_high a := by have := a.toNat_lt; omega
  ofInt_toInt a := by simp
  toInt_ofInt n h h' := by simp only [UInt32.toNat_ofNat']; omega

def unsigned64 : Width UInt64 where
  name := "u64"
  low := 0
  high := 0xffffffffffffffff
  ofInt n := UInt64.ofNat n.toNat
  toInt a := a.toNat
  low_le a := by omega
  le_high a := by have := a.toNat_lt; omega
  ofInt_toInt a := by simp
  toInt_ofInt n h h' := by simp only [UInt64.toNat_ofNat']; omega

def signed64 : Width Int64 where
  name := "i64"
  low := -0x8000000000000000
  high := 0x7fffffffffffffff
  ofInt := Int64.ofInt
  toInt := Int64.toInt
  low_le a := a.le_toInt
  le_high a := by have := a.toInt_lt; omega
  ofInt_toInt a := by simp
  toInt_ofInt n h h' := Int64.toInt_ofInt_of_le h (by omega)

end Width

end OrderDesk
