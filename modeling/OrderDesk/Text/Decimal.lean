/-!
# Decimal numerals

The written form of an integer: its digits, most significant first, without
leading zeros, after a minus sign if it is negative. `render_inj`: no two
integers have the same numeral.
-/

namespace OrderDesk.Decimal

/-- The digits of `n`, of which there are at most `fuel`. -/
def digitsUpTo : (fuel n : Nat) → List Nat
  | 0, _ => []
  | fuel + 1, n => if n < 10 then [n] else digitsUpTo fuel (n / 10) ++ [n % 10]

def digits (n : Nat) : List Nat := digitsUpTo (n + 1) n

def value (ds : List Nat) : Nat := ds.foldl (fun n d => 10 * n + d) 0

theorem value_append_singleton (ds : List Nat) (d : Nat) : value (ds ++ [d]) = 10 * value ds + d := by
  simp [value]

theorem value_digitsUpTo (fuel n : Nat) (h : n < fuel) : value (digitsUpTo fuel n) = n := by
  induction fuel generalizing n with
  | zero => omega
  | succ fuel ih =>
    simp only [digitsUpTo]
    split
    · simp [value]
    · rw [value_append_singleton, ih (n / 10) (by omega)]
      omega

theorem value_digits (n : Nat) : value (digits n) = n := value_digitsUpTo _ _ (by omega)

def digitChar (d : Nat) : Char := Char.ofNat ('0'.toNat + d)

def natural (n : Nat) : List Char := (digits n).map digitChar

def integer : Int → List Char
  | .ofNat n => natural n
  | .negSucc n => '-' :: natural (n + 1)

def render (n : Int) : String := String.ofList (integer n)

/-! ## Numerals determine their integers -/

theorem lt_ten_of_mem_digitsUpTo {fuel n d : Nat} (h : d ∈ digitsUpTo fuel n) : d < 10 := by
  induction fuel generalizing n with
  | zero => cases h
  | succ fuel ih =>
    unfold digitsUpTo at h
    split at h
    · rwa [List.mem_singleton.1 h]
    · rcases List.mem_append.1 h with h | h
      · exact ih h
      · rw [List.mem_singleton.1 h]
        exact Nat.mod_lt n (by decide)

/-- A numeral does not start with a zero, unless it is that of zero. -/
theorem digitsUpTo_eq_cons {fuel n : Nat} (h : n < fuel) :
    ∃ d ds, digitsUpTo fuel n = d :: ds ∧ (d = 0 → n = 0 ∧ ds = []) := by
  induction fuel generalizing n with
  | zero => omega
  | succ fuel ih =>
    unfold digitsUpTo
    split
    · exact ⟨n, [], rfl, fun hn => ⟨hn, rfl⟩⟩
    · obtain ⟨d, ds, hds, hzero⟩ := ih (n := n / 10) (by omega)
      refine ⟨d, ds ++ [n % 10], by rw [hds]; rfl, fun hd => ?_⟩
      have := (hzero hd).1
      omega

theorem toNat_digitChar {d : Nat} (h : d < 10) : (digitChar d).toNat = 48 + d := by
  have hall : ∀ d < 10, (digitChar d).toNat = 48 + d := by decide
  exact hall d h

theorem value_of_natural (n : Nat) : value ((natural n).map fun c => c.toNat - 48) = n := by
  have hback : (natural n).map (fun c => c.toNat - 48) = digits n := by
    rw [natural, List.map_map]
    refine (List.map_congr_left fun d hd => ?_).trans (List.map_id _)
    rw [Function.comp_apply, toNat_digitChar (lt_ten_of_mem_digitsUpTo hd)]
    exact Nat.add_sub_cancel_left 48 d
  rw [hback, value_digits]

theorem natural_inj {m n : Nat} (h : natural m = natural n) : m = n := by
  rw [← value_of_natural m, h, value_of_natural]

theorem minus_not_mem_natural (n : Nat) : '-' ∉ natural n := by
  intro h
  obtain ⟨d, hd, he⟩ := List.mem_map.1 h
  have := toNat_digitChar (lt_ten_of_mem_digitsUpTo hd)
  rw [he] at this
  have hminus : '-'.toNat = 45 := rfl
  omega

theorem integer_inj {m n : Int} (h : integer m = integer n) : m = n := by
  cases m with
  | ofNat m =>
    cases n with
    | ofNat n => exact congrArg Int.ofNat (natural_inj h)
    | negSucc n =>
      have hn : natural m = '-' :: natural (n + 1) := h
      exact absurd (hn ▸ List.mem_cons_self) (minus_not_mem_natural m)
  | negSucc m =>
    cases n with
    | ofNat n =>
      have hm : '-' :: natural (m + 1) = natural n := h
      exact absurd (hm ▸ List.mem_cons_self) (minus_not_mem_natural n)
    | negSucc n => exact congrArg Int.negSucc (Nat.succ.inj (natural_inj (List.cons.inj h).2))

theorem render_inj {m n : Int} (h : render m = render n) : m = n := integer_inj (String.ofList_injective h)

end OrderDesk.Decimal
