/-!
# Bytes

Byte strings as lists, and the UTF-8 of a text.
-/

namespace OrderDesk

abbrev Bytes := List UInt8

def Bytes.ofString (s : String) : Bytes := s.toUTF8.data.toList

def Bytes.text? (bs : Bytes) : Option String := String.fromUTF8? ⟨bs.toArray⟩

theorem Bytes.text?_ofString (s : String) : (Bytes.ofString s).text? = some s := by
  simp only [Bytes.ofString, Bytes.text?, String.fromUTF8?, String.toUTF8_eq_toByteArray, Array.toArray_toList,
    dif_pos s.isValidUTF8]
  rfl

def Bytes.toNatLE : Bytes → Nat
  | [] => 0
  | b :: bs => b.toNat + 256 * toNatLE bs

/-- The `size` lowest bytes of a number, least significant first. -/
def Bytes.ofNatLE : (size n : Nat) → Bytes
  | 0, _ => []
  | size + 1, n => UInt8.ofNat n :: ofNatLE size (n / 256)

theorem Bytes.length_ofNatLE (size n : Nat) : (Bytes.ofNatLE size n).length = size := by
  induction size generalizing n with
  | zero => rfl
  | succ size ih => simp [Bytes.ofNatLE, ih]

theorem Bytes.toNatLE_ofNatLE (size n : Nat) : Bytes.toNatLE (Bytes.ofNatLE size n) = n % Nat.pow 256 size := by
  induction size generalizing n with
  | zero => exact (Nat.mod_one n).symm
  | succ size ih =>
    have hbyte : (UInt8.ofNat n).toNat = n % 256 := by simp
    have hpow : Nat.pow 256 (size + 1) = 256 * Nat.pow 256 size := Nat.mul_comm ..
    rw [Bytes.ofNatLE, Bytes.toNatLE, ih, hbyte, hpow, Nat.mod_mul]

theorem Bytes.ofNatLE_inj {size m n : Nat} (hm : m < Nat.pow 256 size) (hn : n < Nat.pow 256 size) :
    Bytes.ofNatLE size m = Bytes.ofNatLE size n ↔ m = n := by
  constructor
  · intro h
    have hvalue := congrArg Bytes.toNatLE h
    rwa [Bytes.toNatLE_ofNatLE, Bytes.toNatLE_ofNatLE, Nat.mod_eq_of_lt hm, Nat.mod_eq_of_lt hn] at hvalue
  · intro h
    rw [h]

theorem Bytes.length_flatMap {α : Type} {f : α → Bytes} {n : Nat} (h : ∀ a, (f a).length = n) (as : List α) :
    (as.flatMap f).length = n * as.length := by
  induction as with
  | nil => rfl
  | cons a as ih => simp [ih, h, Nat.mul_succ, Nat.add_comm]

/-- Whether two byte strings are the same. Every byte is looked at, wherever the
first difference is. -/
def Bytes.same (a b : Bytes) : Bool :=
  a.length = b.length && (a.zip b).foldl (fun seen p => seen ||| (p.1 ^^^ p.2)) 0 = 0

theorem Bytes.foldl_difference_eq_zero_iff (ps : List (UInt8 × UInt8)) (seen : UInt8) :
    ps.foldl (fun seen p => seen ||| (p.1 ^^^ p.2)) seen = 0 ↔ seen = 0 ∧ ∀ p ∈ ps, p.1 = p.2 := by
  induction ps generalizing seen with
  | nil => simp
  | cons p ps ih =>
    rw [List.foldl_cons, ih, UInt8.or_eq_zero_iff, UInt8.xor_eq_zero_iff, List.forall_mem_cons, and_assoc]

@[simp] theorem Bytes.same_iff {a b : Bytes} : a.same b = true ↔ a = b := by
  rw [same, Bool.and_eq_true, decide_eq_true_eq, decide_eq_true_eq, foldl_difference_eq_zero_iff]
  constructor
  · rintro ⟨hlength, -, hsame⟩
    refine List.ext_getElem hlength fun i ha hb => ?_
    have hi : i < (a.zip b).length := by
      rw [List.length_zip]
      omega
    have := hsame _ (List.getElem_mem hi)
    rwa [List.getElem_zip] at this
  · rintro rfl
    refine ⟨rfl, rfl, fun p hp => ?_⟩
    obtain ⟨i, hi, rfl⟩ := List.getElem_of_mem hp
    rw [List.getElem_zip]

end OrderDesk
