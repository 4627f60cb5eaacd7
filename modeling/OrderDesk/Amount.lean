/-!
# Amounts of money

Prices and costs are 64-bit integers in the smallest unit of the currency. A
sum or product that does not fit is refused, and the refusal names the step
that overflowed.
-/

namespace OrderDesk

inductive Overflow
  | addition
  | multiplication
  deriving DecidableEq, Repr

def Overflow.message : Overflow → String
  | .addition => "attempt to add with overflow"
  | .multiplication => "attempt to multiply with overflow"

namespace Amount

def Fits (n : Int) : Prop := -0x8000000000000000 ≤ n ∧ n < 0x8000000000000000

instance (n : Int) : Decidable (Fits n) := inferInstanceAs (Decidable (_ ∧ _))

def ofInt (cause : Overflow) (n : Int) : Except Overflow Int64 :=
  if Fits n then .ok (Int64.ofInt n) else .error cause

def add (a b : Int64) : Except Overflow Int64 := ofInt .addition (a.toInt + b.toInt)

def mul (a b : Int64) : Except Overflow Int64 := ofInt .multiplication (a.toInt * b.toInt)

def sum (amounts : List Int64) : Except Overflow Int64 := amounts.foldlM add 0

/-- The next larger number, or the largest there is. -/
def succSaturating (a : Int64) : Int64 := if a = Int64.maxValue then a else a + 1

theorem toInt_add_one {a : Int64} (h : a ≠ Int64.maxValue) : (a + 1).toInt = a.toInt + 1 := by
  have hle := Int64.toInt_le a
  have hge := Int64.le_toInt a
  have hne : a.toInt ≠ Int64.maxValue.toInt := fun e => h (Int64.toInt_inj.1 e)
  rw [Int64.toInt_maxValue] at hne hle
  rw [Int64.toInt_add, Int64.toInt_one]
  apply Int.bmod_eq_of_le <;> omega

theorem lt_add_one {a : Int64} (h : a ≠ Int64.maxValue) : a < a + 1 := by
  rw [Int64.lt_iff_toInt_lt, toInt_add_one h]
  exact Int.lt_succ a.toInt

theorem lt_succSaturating (a : Int64) : a < succSaturating a ∨ succSaturating a = Int64.maxValue := by
  unfold succSaturating
  split
  · next h => exact .inr h
  · next h => exact .inl (lt_add_one h)

theorem le_max_left (a b : Int64) : a ≤ max a b := by
  have hmax : max a b = if a ≤ b then b else a := rfl
  rw [hmax]
  split
  · next h => exact h
  · exact Int64.le_refl a

theorem le_max_right (a b : Int64) : b ≤ max a b := by
  have hmax : max a b = if a ≤ b then b else a := rfl
  rw [hmax]
  split
  · exact Int64.le_refl b
  · next h => exact Int64.le_of_lt (Int64.not_le.1 h)

end Amount

end OrderDesk
