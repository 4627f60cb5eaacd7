import OrderDesk.Json.Lexeme

/-!
# JSON documents

A text as far as it is JSON: a tree of its values in the order of the text,
with repeated members, and a flaw at the place where the text stops being
JSON. What a reader wants of the text decides which flaws it meets: a reader
that turns a member down before its flaw never gets there, and one that passes
over a value does not mind what its strings and numbers hold.
-/

namespace OrderDesk.Json

/-- A string or number with what comes of reading it and of passing over it. -/
structure Lexeme (α : Type) where
  value : Except Flaw α
  passed : Except Flaw Unit
  deriving Repr

def Lexeme.missing {α : Type} (flaw : Flaw) : Lexeme α := ⟨.error flaw, .error flaw⟩

inductive Document
  | null
  | bool (b : Bool)
  | number (lexeme : Lexeme Number)
  | string (lexeme : Lexeme String)
  | array (items : List Document) (flaw : Option Flaw)
  | object (members : List (Lexeme String × Document)) (flaw : Option Flaw)
  | word (flaw : Flaw)
  | missing (flaw : Flaw)
  deriving Repr, Inhabited

def maxDepth : Nat := 127

namespace Document

def isBlank (b : UInt8) : Bool := b = 0x20 || b = 0x0a || b = 0x0d || b = 0x09

def skipBlanks (text : Bytes) : Bytes := text.dropWhile isBlank

def passWord : (letters text : Bytes) → Except Flaw Bytes
  | [], text => .ok text
  | _ :: _, [] => .error .truncated
  | a :: letters, b :: text => if a = b then passWord letters text else .error .malformed

def scanWord (value : Document) (letters : String) (text : Bytes) : Document × Option Bytes :=
  match passWord (Bytes.ofString letters) text with
  | .ok rest => (value, some rest)
  | .error flaw => (.word flaw, none)

/-- Pairs what reading gives with what passing over gives; the latter says
where the text goes on. -/
def scanLexeme {α : Type} (value : Except Flaw (α × Bytes)) (passed : Except Flaw Bytes) :
    Lexeme α × Option Bytes :=
  (⟨(·.1) <$> value, (fun _ => ()) <$> passed⟩, passed.toOption)

mutual

/-- The value at the start of the text and what is left after it, if the text
goes on after the value. -/
def scan : (fuel : Nat) → Bytes → Document × Option Bytes
  | 0, _ => (.missing .truncated, none)
  | fuel + 1, text =>
    match skipBlanks text with
    | [] => (.missing .truncated, none)
    | b :: rest =>
      if b = 'n'.toUInt8 then scanWord .null "ull" rest
      else if b = 't'.toUInt8 then scanWord (.bool true) "rue" rest
      else if b = 'f'.toUInt8 then scanWord (.bool false) "alse" rest
      else if b = '-'.toUInt8 || isDigit b then
        let (lexeme, rest) := scanLexeme (readNumber (b :: rest)) (passNumber (b :: rest))
        (.number lexeme, rest)
      else if b = quoteByte then
        let (lexeme, rest) := scanLexeme (readString rest) (passString rest)
        (.string lexeme, rest)
      else if b = '['.toUInt8 then
        match skipBlanks rest with
        | [] => (.array [] (some .truncated), none)
        | c :: rest' =>
          if c = ']'.toUInt8 then (.array [] none, some rest')
          else
            match scanItems fuel rest with
            | (items, .ok rest) => (.array items none, some rest)
            | (items, .error flaw) => (.array items (some flaw), none)
      else if b = '\x7b'.toUInt8 then
        match skipBlanks rest with
        | [] => (.object [] (some .truncated), none)
        | c :: rest' =>
          if c = '\x7d'.toUInt8 then (.object [] none, some rest')
          else if c = quoteByte then
            match scanMembers fuel rest' with
            | (members, .ok rest) => (.object members none, some rest)
            | (members, .error flaw) => (.object members (some flaw), none)
          else (.object [] (some .malformed), none)
      else (.missing .malformed, none)

def scanItems : (fuel : Nat) → Bytes → List Document × Except Flaw Bytes
  | 0, _ => ([], .error .truncated)
  | fuel + 1, text =>
    match scan fuel text with
    | (item, none) => ([item], .error .malformed)
    | (item, some rest) =>
      match skipBlanks rest with
      | [] => ([item], .error .truncated)
      | b :: rest =>
        if b = ']'.toUInt8 then ([item], .ok rest)
        else if b = ','.toUInt8 then
          let (items, rest) := scanItems fuel rest
          (item :: items, rest)
        else ([item], .error .malformed)

/-- The members of an object from behind the opening quote of a name on. A
comma promises one more: if no name comes after it, a member that has none is
the last. -/
def scanMembers : (fuel : Nat) → Bytes → List (Lexeme String × Document) × Except Flaw Bytes
  | 0, _ => ([], .error .truncated)
  | fuel + 1, text =>
    match scanLexeme (readString text) (passString text) with
    | (name, none) => ([(name, .missing .malformed)], .error .malformed)
    | (name, some rest) =>
      match skipBlanks rest with
      | [] => ([(name, .missing .truncated)], .error .truncated)
      | b :: rest =>
        if b ≠ ':'.toUInt8 then ([(name, .missing .malformed)], .error .malformed)
        else
          match scan fuel rest with
          | (value, none) => ([(name, value)], .error .malformed)
          | (value, some rest) =>
            match skipBlanks rest with
            | [] => ([(name, value)], .error .truncated)
            | b :: rest =>
              if b = '\x7d'.toUInt8 then ([(name, value)], .ok rest)
              else if b ≠ ','.toUInt8 then ([(name, value)], .error .malformed)
              else
                match skipBlanks rest with
                | [] => ([(name, value), (.missing .truncated, .missing .truncated)], .error .truncated)
                | b :: rest =>
                  if b = quoteByte then
                    let (members, rest) := scanMembers fuel rest
                    ((name, value) :: members, rest)
                  else ([(name, value), (.missing .malformed, .missing .malformed)], .error .malformed)

end

/-- The document of a text and what is left after it. Each value, item and
member takes at least one byte and uses up at most two units of fuel. -/
def ofBytes (text : Bytes) : Document × Option Bytes := scan (2 * text.length + 2) text

def check (flaw : Option Flaw) : Except Flaw Unit :=
  match flaw with
  | none => .ok ()
  | some flaw => .error flaw

/-! ## Passing over -/

mutual

def pass : Document → Except Flaw Unit
  | .null | .bool _ => .ok ()
  | .number lexeme => lexeme.passed
  | .string lexeme => lexeme.passed
  | .array items flaw => do passItems items; check flaw
  | .object members flaw => do passMembers members; check flaw
  | .word flaw => .error flaw
  | .missing flaw => .error flaw
termination_by structural d => d

def passItems : List Document → Except Flaw Unit
  | [] => .ok ()
  | d :: ds => do d.pass; passItems ds
termination_by structural ds => ds

def passMembers : List (Lexeme String × Document) → Except Flaw Unit
  | [] => .ok ()
  | (name, d) :: ms => do name.passed; d.pass; passMembers ms
termination_by structural ms => ms

end

/-! ## Reading -/

mutual

/-- The value, with the members of its objects as they stand in the text.
`depth` is how many more levels may be opened. -/
def value : Document → (depth : Nat) → Except Flaw Json
  | .null, _ => .ok .null
  | .bool b, _ => .ok (.bool b)
  | .number lexeme, _ => .number <$> lexeme.value
  | .string lexeme, _ => .string <$> lexeme.value
  | .array _ _, 0 | .object _ _, 0 => .error .malformed
  | .array items flaw, depth + 1 => do
    let js ← values items depth
    check flaw
    return .array js
  | .object members flaw, depth + 1 => do
    let ms ← memberValues members depth
    check flaw
    return .object ms
  | .word flaw, _ => .error flaw
  | .missing flaw, _ => .error flaw
termination_by structural d => d

def values : List Document → (depth : Nat) → Except Flaw (List Json)
  | [], _ => .ok []
  | d :: ds, depth => do
    let j ← d.value depth
    let js ← values ds depth
    return j :: js
termination_by structural ds => ds

def memberValues : List (Lexeme String × Document) → (depth : Nat) → Except Flaw (List (String × Json))
  | [], _ => .ok []
  | (name, d) :: ds, depth => do
    let name ← name.value
    let j ← d.value depth
    let ms ← memberValues ds depth
    return (name, j) :: ms
termination_by structural ds => ds

end

end Document

end OrderDesk.Json
