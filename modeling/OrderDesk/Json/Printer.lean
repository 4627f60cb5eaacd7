import OrderDesk.Bytes
import OrderDesk.Json.Basic
import OrderDesk.Text.Quoted

/-!
# Printing JSON

The compact text of a value. In a string the quote, the backslash and the
characters below U+0020 are escaped and every other byte stands for itself.
-/

namespace OrderDesk.Json

def quoteByte : UInt8 := '"'.toUInt8

def backslash : UInt8 := '\\'.toUInt8

def shortEscapes : List (UInt8 × UInt8) :=
  [(quoteByte, quoteByte), (backslash, backslash), (8, 'b'.toUInt8), (9, 't'.toUInt8), (10, 'n'.toUInt8),
    (12, 'f'.toUInt8), (13, 'r'.toUInt8)]

def escapeByte (b : UInt8) : Bytes :=
  match shortEscapes.lookup b with
  | some letter => [backslash, letter]
  | none =>
    if b < 0x20 then
      Bytes.ofString "\\u00" ++ [(Text.hexDigit (b.toNat / 16)).toUInt8, (Text.hexDigit (b.toNat % 16)).toUInt8]
    else [b]

def printString (s : String) : Bytes := quoteByte :: (Bytes.ofString s).flatMap escapeByte ++ [quoteByte]

def printNumber : Number → Bytes
  | .integer n => (Decimal.integer n).map Char.toUInt8
  | .float negative x => Bytes.ofString ((if negative then "-" else "") ++ x.render)

mutual

def print : Json → Bytes
  | .null => Bytes.ofString "null"
  | .bool true => Bytes.ofString "true"
  | .bool false => Bytes.ofString "false"
  | .number n => printNumber n
  | .string s => printString s
  | .array [] => Bytes.ofString "[]"
  | .array (j :: js) => '['.toUInt8 :: j.print ++ printItems js
  | .object [] => '\x7b'.toUInt8 :: ['\x7d'.toUInt8]
  | .object ((name, j) :: members) => '\x7b'.toUInt8 :: printString name ++ ':'.toUInt8 :: j.print ++ printMembers members
termination_by structural j => j

def printItems : List Json → Bytes
  | [] => [']'.toUInt8]
  | j :: js => ','.toUInt8 :: j.print ++ printItems js
termination_by structural js => js

def printMembers : List (String × Json) → Bytes
  | [] => ['\x7d'.toUInt8]
  | (name, j) :: members => ','.toUInt8 :: printString name ++ ':'.toUInt8 :: j.print ++ printMembers members
termination_by structural members => members

end

end OrderDesk.Json
