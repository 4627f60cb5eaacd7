import OrderDesk.Json.Printer

/-!
# Strings and numbers in a JSON text

A string or a number can be read for its value or passed over. Reading is
stricter: it asks for valid UTF-8, paired surrogates and a number in range,
which a value that nobody wants need not have. All functions take the text
from the place where they start and give what is left of it.
-/

namespace OrderDesk.Json

inductive Flaw
  | malformed
  | truncated
  deriving DecidableEq, Repr

/-! ## Strings -/

def hexValue? (b : UInt8) : Option Nat :=
  if '0'.toUInt8 ≤ b ∧ b ≤ '9'.toUInt8 then some (b.toNat - '0'.toNat)
  else if 'a'.toUInt8 ≤ b ∧ b ≤ 'f'.toUInt8 then some (b.toNat - 'a'.toNat + 10)
  else if 'A'.toUInt8 ≤ b ∧ b ≤ 'F'.toUInt8 then some (b.toNat - 'A'.toNat + 10)
  else none

def hex4? (a b c d : UInt8) : Option Nat := do
  return ((← hexValue? a) * 16 + (← hexValue? b)) * 256 + ((← hexValue? c) * 16 + (← hexValue? d))

def escaped? (letter : UInt8) : Option UInt8 :=
  if letter = '/'.toUInt8 then some '/'.toUInt8
  else (shortEscapes.find? (·.2 = letter)).map (·.1)

def isHighSurrogate (n : Nat) : Bool := 0xd800 ≤ n && n < 0xdc00

def isLowSurrogate (n : Nat) : Bool := 0xdc00 ≤ n && n < 0xe000

def pairValue (high low : Nat) : Nat := 0x10000 + (high - 0xd800) * 0x400 + (low - 0xdc00)

def utf8 (n : Nat) : Bytes := String.utf8EncodeChar (Char.ofNat n)

def readBytes : Bytes → Except Flaw (Bytes × Bytes)
  | [] => .error .truncated
  | b :: rest =>
    if b = quoteByte then .ok ([], rest)
    else if b = backslash then
      match rest with
      | [] => .error .truncated
      | letter :: rest =>
        if letter = 'u'.toUInt8 then
          match rest with
          | a :: b :: c :: d :: rest =>
            match hex4? a b c d with
            | none => .error .malformed
            | some n =>
              if isLowSurrogate n then .error .malformed
              else if isHighSurrogate n then
                match rest with
                | [] => .error .truncated
                | s :: rest =>
                  if s ≠ backslash then .error .malformed
                  else
                    match rest with
                    | [] => .error .truncated
                    | u :: rest =>
                      if u ≠ 'u'.toUInt8 then .error .malformed
                      else
                        match rest with
                        | a :: b :: c :: d :: rest =>
                          match hex4? a b c d with
                          | none => .error .malformed
                          | some m =>
                            if isLowSurrogate m then
                              (readBytes rest).map fun r => (utf8 (pairValue n m) ++ r.1, r.2)
                            else .error .malformed
                        | _ => .error .truncated
              else (readBytes rest).map fun r => (utf8 n ++ r.1, r.2)
          | _ => .error .truncated
        else
          match escaped? letter with
          | none => .error .malformed
          | some b => (readBytes rest).map fun r => (b :: r.1, r.2)
    else if b < 0x20 then .error .malformed
    else (readBytes rest).map fun r => (b :: r.1, r.2)

def readString (text : Bytes) : Except Flaw (String × Bytes) := do
  let (bytes, rest) ← readBytes text
  match bytes.text? with
  | some s => .ok (s, rest)
  | none => .error .malformed

def passString : Bytes → Except Flaw Bytes
  | [] => .error .truncated
  | b :: rest =>
    if b = quoteByte then .ok rest
    else if b = backslash then
      match rest with
      | [] => .error .truncated
      | letter :: rest =>
        if letter = 'u'.toUInt8 then
          match rest with
          | a :: b :: c :: d :: rest => if (hex4? a b c d).isSome then passString rest else .error .malformed
          | _ => .error .truncated
        else if (escaped? letter).isSome then passString rest
        else .error .malformed
    else if b < 0x20 then .error .malformed
    else passString rest

/-! ## Numbers -/

def isDigit (b : UInt8) : Bool := '0'.toUInt8 ≤ b && b ≤ '9'.toUInt8

def digitValue (b : UInt8) : Nat := b.toNat - '0'.toNat

def isExponentMark (b : UInt8) : Bool := b = 'e'.toUInt8 || b = 'E'.toUInt8

/-- The parts of a number: the digits before the point, those after it, and
the signed digits of the exponent. -/
structure Numeral where
  negative : Bool
  whole : Bytes
  fraction : Option Bytes
  exponent : Option (Bool × Bytes)
  deriving DecidableEq, Repr

/-- The exponent of a number, from its mark on if it has one. `ending` is the
flaw of a number that ends where a digit is due. -/
def scanExponent (ending : Flaw) : Bytes → Except Flaw (Option (Bool × Bytes) × Bytes)
  | [] => .ok (none, [])
  | b :: rest =>
    if isExponentMark b then
      let (negative, rest) : Bool × Bytes :=
        match rest with
        | s :: rest' => if s = '+'.toUInt8 then (false, rest') else if s = '-'.toUInt8 then (true, rest') else (false, rest)
        | [] => (false, [])
      match rest with
      | [] => .error ending
      | d :: _ =>
        if isDigit d then .ok (some (negative, rest.takeWhile isDigit), rest.dropWhile isDigit)
        else .error .malformed
    else .ok (none, b :: rest)

def scanFraction (ending : Flaw) : Bytes → Except Flaw (Option Bytes × Bytes)
  | [] => .ok (none, [])
  | b :: rest =>
    if b = '.'.toUInt8 then
      match rest with
      | [] => .error ending
      | d :: _ => if isDigit d then .ok (some (rest.takeWhile isDigit), rest.dropWhile isDigit) else .error .malformed
    else .ok (none, b :: rest)

def scanWhole (ending : Flaw) : Bytes → Except Flaw (Bytes × Bytes)
  | [] => .error ending
  | b :: rest =>
    if b = '0'.toUInt8 then
      match rest with
      | [] => .ok ([b], [])
      | d :: _ => if isDigit d then .error .malformed else .ok ([b], rest)
    else if isDigit b then .ok (b :: rest.takeWhile isDigit, rest.dropWhile isDigit)
    else .error .malformed

def scanNumeral (ending : Flaw) (text : Bytes) : Except Flaw (Numeral × Bytes) := do
  let (negative, text) : Bool × Bytes :=
    match text with
    | b :: rest => if b = '-'.toUInt8 then (true, rest) else (false, text)
    | [] => (false, [])
  let (whole, text) ← scanWhole ending text
  let (fraction, text) ← scanFraction ending text
  let (exponent, text) ← scanExponent ending text
  return ({ negative, whole, fraction, exponent }, text)

def maxUnsigned : Nat := UInt64.size - 1

/-- Takes in digits as long as the number stays below 2^64; the digits that
are left over have no influence on the value but their count. -/
def absorb (n : Nat) : Bytes → Nat × Bytes
  | [] => (n, [])
  | d :: ds => if 10 * n + digitValue d ≤ maxUnsigned then absorb (10 * n + digitValue d) ds else (n, d :: ds)

namespace Numeral

def significand (n : Numeral) : Nat × Int :=
  let (whole, left) := absorb 0 n.whole
  match n.fraction with
  | none => (whole, left.length)
  | some ds =>
    let (digits, unused) := absorb whole ds
    (digits, (left.length : Int) - ((ds.length : Int) - unused.length))

def float? (n : Numeral) : Option Number :=
  let (digits, exponent) := n.significand
  let magnitude? : Option Binary64 :=
    match n.exponent with
    | none => Binary64.ofDecimal? digits exponent
    | some (negative, ds) =>
      let e := Decimal.value (ds.map digitValue)
      if e < 0x80000000 then Binary64.ofDecimal? digits (if negative then exponent - e else exponent + e)
      else if digits = 0 ∨ negative then some Binary64.zero
      else none
  magnitude?.map (.float n.negative)

/-- The number as an integer, if it is written as one and fits in 64 bits. A
negative zero does not count. -/
def integer? (n : Numeral) : Option Number :=
  match n.fraction, n.exponent with
  | none, none =>
    let v := Decimal.value (n.whole.map digitValue)
    if n.negative then if 0 < v ∧ v ≤ 0x8000000000000000 then some (.integer (-v)) else none
    else if v ≤ maxUnsigned then some (.integer v)
    else none
  | _, _ => none

def value? (n : Numeral) : Option Number := n.integer?.or n.float?

end Numeral

def readNumber (text : Bytes) : Except Flaw (Number × Bytes) := do
  let (numeral, rest) ← scanNumeral .truncated text
  match numeral.value? with
  | some n => .ok (n, rest)
  | none => .error .malformed

def passNumber (text : Bytes) : Except Flaw Bytes := (·.2) <$> scanNumeral .malformed text

end OrderDesk.Json
