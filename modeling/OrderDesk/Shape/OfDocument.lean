import OrderDesk.Json.Document
import OrderDesk.Shape.OfJson

/-!
# Reading texts

A value of a shape read from a text. The first offence in the order of the
text is reported, be it against JSON or against the shape.
-/

namespace OrderDesk

open Json (Document Flaw Lexeme)

namespace Defect

def ofText {α : Type} (r : Except Flaw α) : Except Defect α := r.mapError text

def ofShape {α : Type} (r : Except Mismatch α) : Except Defect α := r.mapError shape

end Defect

namespace Json.Document

/-- What the document holds, as far as its first byte and, for a single
value, the rest of it show. -/
def found : Document → Except Flaw Found
  | null => .ok .null
  | bool b => .ok (.bool b)
  | number lexeme => .number <$> lexeme.value
  | string lexeme => .string <$> lexeme.value
  | array _ _ => .ok .sequence
  | object _ _ => .ok .map
  | word flaw => .error flaw
  | missing flaw => .error flaw

def mismatch {α : Type} (d : Document) (expected : String) : Except Defect α := do
  let found ← Defect.ofText d.found
  .error (.shape (.wrongType found expected))

def close {α : Type} (left : List α) (flaw : Option Flaw) : Except Defect Unit :=
  if left.isEmpty then Defect.ofText (check flaw) else .error (.text .malformed)

def lacking {α : Type} (flaw : Option Flaw) (m : Mismatch) : Except Defect α := do
  Defect.ofText (check flaw)
  .error (.shape m)

/-- The members up to and with the first that is named `kind` or `value`, the
others passed over; none if there is no such member. -/
def relevant : List (Lexeme String × Document) →
    Except Flaw (Option (String × Document × List (Lexeme String × Document)))
  | [] => .ok none
  | (name, d) :: rest => do
    let s ← name.value
    if s = Shape.kindName ∨ s = Shape.valueName then return some (s, d, rest)
    d.pass
    relevant rest

def noneLeft (rest : List (Lexeme String × Document)) (flaw : Option Flaw) : Except Defect Unit := do
  match ← Defect.ofText (relevant rest) with
  | none => Defect.ofText (check flaw)
  | some (name, _) => .error (.shape (.duplicateField name))

end Json.Document

namespace Shape

/-- A constant as a kind that stands before its value in an array: its name
and nothing else. -/
def identifierOfDocument {α : Type} (constants : Naming α) : Document → Except Defect α
  | .string lexeme => do Defect.ofShape (ofName constants (← Defect.ofText lexeme.value))
  | d => d.mismatch identifier

/-- A constant in a text: its name, or an object with that name beside null.
Any other text is malformed where a constant is due. -/
def constantOfDocument {α : Type} (constants : Naming α) : (depth : Nat) → Document → Except Defect α
  | _, .string lexeme => do Defect.ofShape (ofName constants (← Defect.ofText lexeme.value))
  | _ + 1, .object ((name, beside) :: rest) flaw => do
    let a ← Defect.ofShape (ofName constants (← Defect.ofText name.value))
    match beside with
    | .null => Json.Document.close rest flaw
    | _ => beside.mismatch "unit"
    return a
  | _ + 1, .object [] (some flaw) => .error (.text flaw)
  | _, .missing flaw => .error (.text flaw)
  | _, _ => .error (.text .malformed)

mutual

/-- The value of a document, in which `depth` more levels may be opened. -/
def ofDocument : {α : Type} → Shape α → (depth : Nat) → Document → Except Defect α
  | _, text, _, .string lexeme => Defect.ofText lexeme.value
  | _, text, _, d => d.mismatch "a string"
  | _, flag, _, .bool b => .ok b
  | _, flag, _, d => d.mismatch "a boolean"
  | _, integer width, _, .number lexeme => do Defect.ofShape (ofNumber width (← Defect.ofText lexeme.value))
  | _, integer width, _, d => d.mismatch width.name
  | _, any, depth, d => Defect.ofText (Json.sorted <$> d.value depth)
  | _, list _, 0, .array _ _ => .error (.text .malformed)
  | _, list item, depth + 1, .array ds flaw => do
    let values ← ds.mapM fun d => item.ofDocument depth d
    Json.Document.close ([] : List Document) flaw
    return values
  | _, list _, _, d => d.mismatch "a sequence"
  | _, choice constants, depth, d => constantOfDocument constants depth d
  | _, record .., 0, .array _ _ => .error (.text .malformed)
  | _, record title fields make _ _ _, depth + 1, .array ds flaw => do
    let values ← documentItems fields (structOf title fields.count) depth 0 ds flaw
    Json.Document.close (ds.drop fields.count) flaw
    return make values
  | _, record .., 0, .object _ _ => .error (.text .malformed)
  | _, record _ fields make _ _ _, depth + 1, .object members flaw => do
    let values? ← members.foldlM (fun values? m => placeDocument fields depth values? m.1 m.2) fields.blank
    Json.Document.close ([] : List Document) flaw
    match fields.complete values? with
    | .ok values => return make values
    | .error name => .error (.shape (.missingField name))
  | _, record title _ _ _ _ _, _, d => d.mismatch (recordNamed title)
  | _, tagged .., 0, .array _ _ => .error (.text .malformed)
  | _, tagged title kinds body make _ _, depth + 1, .array ds flaw =>
    match ds with
    | [] => Json.Document.lacking flaw (.wrongLength 0 (kindAndValue title))
    | k :: ds => do
      let k ← identifierOfDocument kinds k
      match ds with
      | [] => Json.Document.lacking flaw (.wrongLength 1 (kindAndValue title))
      | v :: rest =>
        let v ← (body k).ofDocument depth v
        Json.Document.close rest flaw
        return make k v
  | _, tagged .., 0, .object _ _ => .error (.text .malformed)
  | _, tagged _ kinds body make _ _, depth + 1, .object members flaw => do
    match ← Defect.ofText (Json.Document.relevant members) with
    | none => Json.Document.lacking flaw (.missingField kindName)
    | some (name, d, rest) =>
      if name = kindName then
        let k ← constantOfDocument kinds depth d
        match ← Defect.ofText (Json.Document.relevant rest) with
        | none => Json.Document.lacking flaw (.missingField valueName)
        | some (name, v, rest) =>
          if name = kindName then .error (.shape (.duplicateField kindName))
          else
            let v ← (body k).ofDocument depth v
            Json.Document.noneLeft rest flaw
            return make k v
      else
        let j ← Defect.ofText (d.value depth)
        match ← Defect.ofText (Json.Document.relevant rest) with
        | none => Json.Document.lacking flaw (.missingField kindName)
        | some (name, k, rest) =>
          if name = valueName then .error (.shape (.duplicateField valueName))
          else
            let k ← constantOfDocument kinds depth k
            let v ← Defect.ofShape ((body k).ofJson .buffer j)
            Json.Document.noneLeft rest flaw
            return make k v
  | _, tagged title _ _ _ _ _, _, d => d.mismatch (kindAndValue title)

def documentItems : {β π : Type} → Fields β π → (expected : String) → (depth read : Nat) → List Document →
    (flaw : Option Flaw) → Except Defect β
  | _, _, .nil, _, _, _, _, _ => .ok ()
  | _, _, .cons .., expected, _, read, [], flaw => Json.Document.lacking flaw (.wrongLength read expected)
  | _, _, .cons _ shape rest, expected, depth, read, d :: ds, flaw => do
    let value ← shape.ofDocument depth d
    let values ← documentItems rest expected depth (read + 1) ds flaw
    return (value, values)

def placeDocument : {β π : Type} → Fields β π → (depth : Nat) → π → Lexeme String → Document → Except Defect π
  | _, _, .nil, _, (), name', d => do
    let _ ← Defect.ofText name'.value
    Defect.ofText d.pass
  | _, _, .cons name shape rest, depth, (value?, values?), name', d => do
    if (← Defect.ofText name'.value) = name then
      match value? with
      | some _ => .error (.shape (.duplicateField name))
      | none => return (some (← shape.ofDocument depth d), values?)
    else return (value?, ← placeDocument rest depth values? name' d)

end

def ofBytes {α : Type} (shape : Shape α) (bytes : Bytes) : Except Defect α := do
  let (document, rest) := Document.ofBytes bytes
  let value ← shape.ofDocument Json.maxDepth document
  match Document.skipBlanks (rest.getD []) with
  | [] => return value
  | _ => .error (.text .malformed)

end Shape

end OrderDesk
