import OrderDesk.Json.Lexeme

/-!
# Reading strings and integers back

What is printed for a string or an integer reads as that string or integer,
and passing over it leaves the same text. A string may be followed by
anything, a number only by what ends it.
-/

namespace OrderDesk.Json

/-! ## Strings -/

theorem escape_letters {e : UInt8 × UInt8} (h : e ∈ shortEscapes) :
    e.2 ≠ 'u'.toUInt8 ∧ escaped? e.2 = some e.1 := by
  have hall : shortEscapes.all fun e => e.2 ≠ 'u'.toUInt8 ∧ escaped? e.2 = some e.1 := by decide
  exact of_decide_eq_true (List.all_eq_true.1 hall e h)

theorem escape_controls : ∀ n < 32,
    hex4? '0'.toUInt8 '0'.toUInt8 (Text.hexDigit (n / 16)).toUInt8 (Text.hexDigit (n % 16)).toUInt8 = some n ∧
      utf8 n = [.ofNat n] := by
  decide

/-- A byte is escaped by a letter or by its number, or stands for itself. -/
theorem escapeByte_cases (b : UInt8) :
    (∃ letter, escapeByte b = [backslash, letter] ∧ letter ≠ 'u'.toUInt8 ∧ escaped? letter = some b) ∨
      (∃ hi lo, escapeByte b = [backslash, 'u'.toUInt8, '0'.toUInt8, '0'.toUInt8, hi, lo] ∧
        hex4? '0'.toUInt8 '0'.toUInt8 hi lo = some b.toNat ∧ utf8 b.toNat = [b] ∧ b.toNat < 32) ∨
      (escapeByte b = [b] ∧ b ≠ quoteByte ∧ b ≠ backslash ∧ ¬ b < 0x20) := by
  unfold escapeByte
  cases hb : shortEscapes.lookup b with
  | some letter =>
    obtain ⟨before, after, hmem, -⟩ := List.lookup_eq_some_iff.1 hb
    have hletter := escape_letters (e := (b, letter)) (by simp [hmem])
    exact .inl ⟨letter, rfl, hletter⟩
  | none =>
    by_cases hlow : b < 0x20
    · have hn : b.toNat < 32 := UInt8.lt_iff_toNat_lt.1 hlow
      obtain ⟨hhex, hutf8⟩ := escape_controls b.toNat hn
      rw [UInt8.ofNat_toNat] at hutf8
      simp only [if_pos hlow]
      exact .inr (.inl ⟨_, _, rfl, hhex, hutf8, hn⟩)
    · have hne := List.lookup_eq_none_iff.1 hb
      have hquote : b ≠ quoteByte := by simpa using hne (quoteByte, quoteByte) (by decide)
      have hbackslash : b ≠ backslash := by simpa using hne (backslash, backslash) (by decide)
      exact .inr (.inr ⟨if_neg hlow, hquote, hbackslash, hlow⟩)

theorem readBytes_escapeByte (b : UInt8) (text : Bytes) :
    readBytes (escapeByte b ++ text) = (readBytes text).map fun r => (b :: r.1, r.2) := by
  have hquote : backslash ≠ quoteByte := by decide
  rcases escapeByte_cases b with ⟨letter, he, hletter, hescaped⟩ | ⟨hi, lo, he, hhex, hutf8, hn⟩ | ⟨he, hbq, hbs, hlow⟩
  · rw [he, List.cons_append, readBytes.eq_def]
    simp [hquote, hletter, hescaped]
  · have hlow : isLowSurrogate b.toNat = false := by simp [isLowSurrogate]; omega
    have hhigh : isHighSurrogate b.toNat = false := by simp [isHighSurrogate]; omega
    rw [he, List.cons_append, readBytes.eq_def]
    simp [hquote, hhex, hlow, hhigh, hutf8]
  · rw [he, List.cons_append, readBytes.eq_def]
    simp [hbq, hbs, hlow]

theorem passString_escapeByte (b : UInt8) (text : Bytes) : passString (escapeByte b ++ text) = passString text := by
  have hquote : backslash ≠ quoteByte := by decide
  rcases escapeByte_cases b with ⟨letter, he, hletter, hescaped⟩ | ⟨hi, lo, he, hhex, -⟩ | ⟨he, hbq, hbs, hlow⟩
  · rw [he, List.cons_append, passString.eq_def]
    simp [hquote, hletter, hescaped]
  · rw [he, List.cons_append, passString.eq_def]
    simp [hquote, hhex]
  · rw [he, List.cons_append, passString.eq_def]
    simp [hbq, hbs, hlow]

theorem readBytes_escaped (bytes text : Bytes) :
    readBytes (bytes.flatMap escapeByte ++ quoteByte :: text) = .ok (bytes, text) := by
  induction bytes with
  | nil => simp [readBytes.eq_def (quoteByte :: text)]
  | cons b bytes ih =>
    rw [List.flatMap_cons, List.append_assoc, readBytes_escapeByte, ih]
    rfl

theorem passString_escaped (bytes text : Bytes) :
    passString (bytes.flatMap escapeByte ++ quoteByte :: text) = .ok text := by
  induction bytes with
  | nil => simp [passString.eq_def (quoteByte :: text)]
  | cons b bytes ih => rw [List.flatMap_cons, List.append_assoc, passString_escapeByte, ih]

/-- The text of a string from behind its opening quote on. -/
def unquoted (s : String) (text : Bytes) : Bytes := (Bytes.ofString s).flatMap escapeByte ++ quoteByte :: text

theorem printString_append (s : String) (text : Bytes) : printString s ++ text = quoteByte :: unquoted s text := by
  simp [printString, unquoted]

theorem readString_unquoted (s : String) (text : Bytes) : readString (unquoted s text) = .ok (s, text) := by
  simp [readString, unquoted, readBytes_escaped, Bytes.text?_ofString, bind, Except.bind]

theorem passString_unquoted (s : String) (text : Bytes) : passString (unquoted s text) = .ok text :=
  passString_escaped _ _

/-! ## Integers -/

/-- The text ends a number: no number goes on with its first byte. -/
def EndsNumber (text : Bytes) : Prop :=
  ∀ b ∈ text.head?, isDigit b = false ∧ b ≠ '.'.toUInt8 ∧ isExponentMark b = false

theorem endsNumber_cons {b : UInt8} (h : isDigit b = false ∧ b ≠ '.'.toUInt8 ∧ isExponentMark b = false)
    (text : Bytes) : EndsNumber (b :: text) := by
  intro c hc
  cases hc
  exact h

def naturalBytes (n : Nat) : Bytes := (Decimal.natural n).map Char.toUInt8

theorem digit_bytes : ∀ d < 10, isDigit (Decimal.digitChar d).toUInt8 ∧
    digitValue (Decimal.digitChar d).toUInt8 = d ∧ ((Decimal.digitChar d).toUInt8 = '0'.toUInt8 → d = 0) := by
  decide

theorem naturalBytes_eq (n : Nat) :
    naturalBytes n = (Decimal.digits n).map fun d => (Decimal.digitChar d).toUInt8 := by
  simp [naturalBytes, Decimal.natural]

theorem isDigit_of_mem_naturalBytes {n : Nat} {b : UInt8} (h : b ∈ naturalBytes n) : isDigit b := by
  rw [naturalBytes_eq] at h
  obtain ⟨d, hd, rfl⟩ := List.mem_map.1 h
  exact (digit_bytes d (Decimal.lt_ten_of_mem_digitsUpTo hd)).1

theorem value_naturalBytes (n : Nat) : Decimal.value ((naturalBytes n).map digitValue) = n := by
  have hdigits : (naturalBytes n).map digitValue = Decimal.digits n := by
    rw [naturalBytes_eq, List.map_map]
    refine (List.map_congr_left fun d hd => ?_).trans (List.map_id _)
    exact (digit_bytes d (Decimal.lt_ten_of_mem_digitsUpTo hd)).2.1
  rw [hdigits, Decimal.value_digits]

theorem naturalBytes_eq_cons (n : Nat) :
    ∃ b bs, naturalBytes n = b :: bs ∧ isDigit b ∧ (b = '0'.toUInt8 → bs = []) := by
  obtain ⟨d, ds, hds, hzero⟩ := Decimal.digitsUpTo_eq_cons (Nat.lt_succ_self n)
  have hd : d < 10 := Decimal.lt_ten_of_mem_digitsUpTo (hds ▸ List.mem_cons_self)
  obtain ⟨hdigit, -, hchar⟩ := digit_bytes d hd
  refine ⟨(Decimal.digitChar d).toUInt8, ds.map fun d => (Decimal.digitChar d).toUInt8, ?_, hdigit, fun hb => ?_⟩
  · rw [naturalBytes_eq, Decimal.digits, hds]
    rfl
  · rw [(hzero (hchar hb)).2]
    rfl

theorem span_digits {digits text : Bytes} (h : ∀ b ∈ digits, isDigit b) (ht : EndsNumber text) :
    (digits ++ text).takeWhile isDigit = digits ∧ (digits ++ text).dropWhile isDigit = text := by
  rw [List.takeWhile_append_of_pos h, List.dropWhile_append_of_pos h]
  cases text with
  | nil => simp
  | cons b text => simp [(ht b rfl).1]

theorem scanWhole_natural (ending : Flaw) (n : Nat) {text : Bytes} (ht : EndsNumber text) :
    scanWhole ending (naturalBytes n ++ text) = .ok (naturalBytes n, text) := by
  obtain ⟨b, bs, hn, hb, hzero⟩ := naturalBytes_eq_cons n
  have hbs : ∀ c ∈ bs, isDigit c := fun c hc => isDigit_of_mem_naturalBytes (hn ▸ List.mem_cons_of_mem b hc)
  obtain ⟨htake, hdrop⟩ := span_digits hbs ht
  rw [hn, List.cons_append]
  by_cases h0 : b = '0'.toUInt8
  · cases text with
    | nil => simp [scanWhole.eq_def, h0, hzero h0]
    | cons c text => simp [scanWhole.eq_def, h0, hzero h0, (ht c rfl).1]
  · simp [scanWhole.eq_def, h0, hb, htake, hdrop]

theorem scanFraction_of_ends (ending : Flaw) {text : Bytes} (ht : EndsNumber text) :
    scanFraction ending text = .ok (none, text) := by
  cases text with
  | nil => rfl
  | cons b text => simp [scanFraction, (ht b rfl).2.1]

theorem scanExponent_of_ends (ending : Flaw) {text : Bytes} (ht : EndsNumber text) :
    scanExponent ending text = .ok (none, text) := by
  cases text with
  | nil => rfl
  | cons b text => simp [scanExponent, (ht b rfl).2.2]

def integerNumeral (n : Int) : Numeral := ⟨n < 0, naturalBytes n.natAbs, none, none⟩

theorem printNumber_eq_cons (n : Int) :
    ∃ b bs, printNumber (.integer n) = b :: bs ∧ (b = '-'.toUInt8 ∨ isDigit b) := by
  cases n with
  | ofNat n =>
    obtain ⟨b, bs, hn, hb, -⟩ := naturalBytes_eq_cons n
    exact ⟨b, bs, hn, .inr hb⟩
  | negSucc n => exact ⟨_, _, rfl, .inl rfl⟩

theorem scanNumeral_integer (ending : Flaw) (n : Int) {text : Bytes} (ht : EndsNumber text) :
    scanNumeral ending (printNumber (.integer n) ++ text) = .ok (integerNumeral n, text) := by
  cases n with
  | ofNat n =>
    obtain ⟨b, bs, hn, hb, -⟩ := naturalBytes_eq_cons n
    have hminus : b ≠ '-'.toUInt8 := by
      intro h
      rw [h] at hb
      exact absurd hb (by decide)
    have hwhole := scanWhole_natural ending n ht
    have htext : printNumber (.integer (.ofNat n)) = naturalBytes n := rfl
    rw [htext]
    rw [hn] at hwhole ⊢
    simp only [scanNumeral, List.cons_append, if_neg hminus] at hwhole ⊢
    simp [hwhole, scanFraction_of_ends ending ht, scanExponent_of_ends ending ht, integerNumeral, hn, bind,
      Except.bind, pure, Except.pure]
  | negSucc n =>
    have htext : printNumber (.integer (.negSucc n)) = '-'.toUInt8 :: naturalBytes (n + 1) := rfl
    simp [htext, scanNumeral, scanWhole_natural ending _ ht, scanFraction_of_ends ending ht,
      scanExponent_of_ends ending ht, integerNumeral, bind, Except.bind, pure, Except.pure]

/-- The integers that a number in a text can be, if it is not a double. -/
def IsWord (n : Int) : Prop := -0x8000000000000000 ≤ n ∧ n ≤ 0xffffffffffffffff

theorem value?_integerNumeral {n : Int} (h : IsWord n) : (integerNumeral n).value? = some (.integer n) := by
  obtain ⟨hlow, hhigh⟩ := h
  have hvalue : (integerNumeral n).integer? = some (.integer n) := by
    simp only [Numeral.integer?, integerNumeral, value_naturalBytes, decide_eq_true_eq]
    split
    · next hneg =>
      rw [if_pos (by omega)]
      congr 2
      omega
    · next hneg =>
      rw [if_pos (by simp [maxUnsigned]; omega)]
      congr 2
      omega
  simp [Numeral.value?, hvalue]

theorem readNumber_integer {n : Int} (h : IsWord n) {text : Bytes} (ht : EndsNumber text) :
    readNumber (printNumber (.integer n) ++ text) = .ok (.integer n, text) := by
  simp [readNumber, scanNumeral_integer _ n ht, value?_integerNumeral h, bind, Except.bind]

theorem passNumber_integer (n : Int) {text : Bytes} (ht : EndsNumber text) :
    passNumber (printNumber (.integer n) ++ text) = .ok text := by
  simp [passNumber, scanNumeral_integer _ n ht, Functor.map, Except.map]

end OrderDesk.Json
