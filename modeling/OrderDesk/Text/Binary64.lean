import OrderDesk.Text.Decimal

/-!
# Binary floating point

Finite doubles without a sign, as a mantissa times a power of two, with
correct rounding to the nearest (ties to the even mantissa), and the shortest
decimal text that reads back as the same double.
-/

namespace OrderDesk

/-- The number `mantissa * 2 ^ exponent`. The mantissa has 53 bits, or fewer at
the least exponent; zero has exponent 0. -/
structure Binary64 where
  mantissa : Nat
  exponent : Int
  deriving DecidableEq, Repr

namespace Binary64

def zero : Binary64 := ⟨0, 0⟩

def ratio (x : Binary64) : Nat × Nat := (x.mantissa * Nat.pow 2 x.exponent.toNat, Nat.pow 2 (-x.exponent).toNat)

/-- `num / den` scaled by a power of two, to the nearest integer. -/
def nearest (num den : Nat) (exponent : Int) : Nat :=
  let n := num * Nat.pow 2 (-exponent).toNat
  let d := den * Nat.pow 2 exponent.toNat
  let q := n / d
  if 2 * (n % d) < d then q else if d < 2 * (n % d) then q + 1 else q + q % 2

def ofRatio? (num den : Nat) : Option Binary64 :=
  if num = 0 then some zero
  else
    let guess : Int := (Nat.log2 num : Int) - Nat.log2 den - 52
    -- the quotient of the powers is off by less than a factor of two
    let exponent := max (-1074) <|
      if num * Nat.pow 2 (-guess).toNat < 0x10000000000000 * (den * Nat.pow 2 guess.toNat) then guess - 1 else guess
    let m := nearest num den exponent
    let x : Binary64 := if m = 0x20000000000000 then ⟨0x10000000000000, exponent + 1⟩ else ⟨m, exponent⟩
    if x.mantissa = 0 then some zero else if 971 < x.exponent then none else some x

def mul? (x y : Binary64) : Option Binary64 := ofRatio? (x.ratio.1 * y.ratio.1) (x.ratio.2 * y.ratio.2)

def div? (x y : Binary64) : Option Binary64 := ofRatio? (x.ratio.1 * y.ratio.2) (x.ratio.2 * y.ratio.1)

def powerOfTen? (n : Nat) : Option Binary64 := ofRatio? (Nat.pow 10 n) 1

/-- `x` times a power of ten, worked out in doubles: one multiplication or
division within the range of powers that are doubles, and before it one
division by the largest such power for each time the exponent lies below it. -/
def scale? : (rounds : Nat) → Binary64 → Int → Option Binary64
  | 0, x, _ => some x
  | rounds + 1, x, e =>
    if e.natAbs ≤ 308 then do
      let power ← powerOfTen? e.natAbs
      if 0 ≤ e then x.mul? power else x.div? power
    else if x = zero then some x
    else if 0 ≤ e then none
    else do scale? rounds (← x.div? (← powerOfTen? 308)) (e + 308)

/-- The double read from decimal digits and an exponent of ten. Two divisions
by the largest power take any 64-bit integer to zero. -/
def ofDecimal? (digits : Nat) (exponent : Int) : Option Binary64 := do
  scale? 4 (← ofRatio? digits 1) exponent

/-! ## Shortest text -/

def readsAs (x : Binary64) (digits : Nat) (exponent : Int) : Bool :=
  let s := digits * 4 * Nat.pow 10 exponent.toNat * Nat.pow 2 (-x.exponent).toNat
  let unit := Nat.pow 10 (-exponent).toNat * Nat.pow 2 x.exponent.toNat
  let below := if x.mantissa = 0x10000000000000 ∧ -1074 < x.exponent then 1 else 2
  let low := (4 * x.mantissa - below) * unit
  let high := (4 * x.mantissa + 2) * unit
  if x.mantissa % 2 = 0 then low ≤ s && s ≤ high else low < s && s < high

def magnitude (x : Binary64) : Int :=
  let (n, d) := x.ratio
  if d ≤ n then ((Decimal.digits (n / d)).length : Int) - 1 else -((Decimal.digits ((d - 1) / n)).length : Int)

/-- The neighbour of `x` on the grid of decimals of `count` digits that reads
as `x`, the nearer one if both do and the even one if they are equally near. -/
def onGrid? (x : Binary64) (count : Nat) : Option (Nat × Int) :=
  let e := x.magnitude - (count - 1)
  let (n, d) := x.ratio
  let num := n * Nat.pow 10 (-e).toNat
  let den := d * Nat.pow 10 e.toNat
  let low := num / den
  let twice := 2 * (num % den)
  let lowFirst := decide (twice < den) || (decide (twice = den) && low % 2 == 0)
  let (first, second) := if lowFirst then (low, low + 1) else (low + 1, low)
  if x.readsAs first e then some (first, e) else if x.readsAs second e then some (second, e) else none

def shortest (x : Binary64) : Nat × Int :=
  ((List.range 17).findSome? fun i => x.onGrid? (i + 1)).getD (0, 0)

def trim : (fuel : Nat) → Nat × Int → Nat × Int
  | 0, p => p
  | fuel + 1, (n, e) => if n % 10 = 0 ∧ n ≠ 0 then trim fuel (n / 10, e + 1) else (n, e)

def zeros (n : Nat) : List Char := List.replicate n '0'

def exponentText (e : Int) : List Char := 'e' :: (if 0 ≤ e then ['+'] else []) ++ Decimal.integer e

/-- The text of a double: positional when the point stands within the first
sixteen digits or after at most four zeros, and with an exponent otherwise. -/
def render (x : Binary64) : String :=
  if x = zero then "0.0"
  else
    let (n, e) := trim 17 x.shortest
    let ds := Decimal.natural n
    let point := (ds.length : Int) + e
    String.ofList <|
      if 0 ≤ e ∧ point ≤ 16 then ds ++ zeros e.toNat ++ ['.', '0']
      else if 0 < point ∧ point ≤ 16 then ds.take point.toNat ++ '.' :: ds.drop point.toNat
      else if -5 < point ∧ point ≤ 0 then '0' :: '.' :: zeros (-point).toNat ++ ds
      else if ds.length = 1 then ds ++ exponentText (point - 1)
      else ds.take 1 ++ '.' :: ds.drop 1 ++ exponentText (point - 1)

end Binary64

end OrderDesk
