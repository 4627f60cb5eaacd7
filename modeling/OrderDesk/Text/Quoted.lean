import OrderDesk.Text.Printable

/-!
# Quoted text

A string between double quotes as a log or an error shows it: quotes,
backslashes and the usual controls are escaped by a letter, and any other
character that would not show by its code point.
-/

namespace OrderDesk.Text

def hexDigit (n : Nat) : Char := if n < 10 then Char.ofNat ('0'.toNat + n) else Char.ofNat ('a'.toNat + n - 10)

def hexDigits (n : Nat) : List Char :=
  let nibbles := (List.range 6).reverse.map fun i => n / Nat.pow 16 i % 16
  match nibbles.dropWhile (· = 0) with
  | [] => ['0']
  | ds => ds.map hexDigit

def quotedChar (c : Char) : List Char :=
  match c with
  | '\x00' => ['\\', '0']
  | '\t' => ['\\', 't']
  | '\r' => ['\\', 'r']
  | '\n' => ['\\', 'n']
  | '\\' => ['\\', '\\']
  | '"' => ['\\', '"']
  | c => if isPrintable c then [c] else ['\\', 'u', '\x7b'] ++ hexDigits c.toNat ++ ['\x7d']

def quoted (s : String) : String := String.ofList ('"' :: s.toList.flatMap quotedChar ++ ['"'])

def quotedList (items : List String) : String := "[" ++ String.intercalate ", " (items.map quoted) ++ "]"

end OrderDesk.Text
