import OrderDesk.Shape.Basic
import OrderDesk.Shape.Defect

/-!
# Reading untyped values

A value of a shape read from JSON that is already a tree. The members of an
object are read in their order, those that the shape does not know are
skipped, and a missing one is noticed last.
-/

namespace OrderDesk

/-- Where an untyped value comes from. -/
inductive Origin
  /-- A value of its own, whose members are in order of their names. -/
  | tree
  /-- A value set aside until its kind was known, with its members as they
  stood in the text. -/
  | buffer
  deriving DecidableEq, Repr

namespace Origin

def tooLong (origin : Origin) (length count : Nat) : Mismatch :=
  match origin with
  | tree => .wrongLength length "fewer elements in array"
  | buffer => .wrongLength length (elements count ++ " in sequence")

/-- Whether a value may stand beside the name of a constant. A value set aside
may also be an empty object. -/
def isUnit (origin : Origin) : Json → Bool
  | .null => true
  | .object [] => origin = buffer
  | _ => false

end Origin

def Json.found : Json → Found
  | .null => .null
  | .bool b => .bool b
  | .number n => .number n
  | .string s => .string s
  | .array _ => .sequence
  | .object _ => .map

namespace Shape

def mismatch {α : Type} (j : Json) (expected : String) : Except Mismatch α := .error (.wrongType j.found expected)

/-! ## The words for what is expected -/

def recordNamed (title : String) : String := "struct " ++ title

def structOf (title : String) (count : Nat) : String := recordNamed title ++ " with " ++ elements count

def kindAndValue (title : String) : String := "adjacently tagged enum " ++ title

def identifier : String := "variant identifier"

/-! ## Readers -/

def ofNumber {α : Type} (width : Width α) : Number → Except Mismatch α
  | .integer n =>
    if width.low ≤ n ∧ n ≤ width.high then .ok (width.ofInt n)
    else .error (.wrongValue (.number (.integer n)) width.name)
  | n => .error (.wrongType (.number n) width.name)

def ofName {α : Type} (constants : Naming α) (s : String) : Except Mismatch α :=
  match constants.find? s with
  | some a => .ok a
  | none => .error (.unknownVariant s constants.names)

/-- A constant as a kind that stands before its value in an array: its name
and nothing else. -/
def ofIdentifier {α : Type} (constants : Naming α) : Json → Except Mismatch α
  | .string s => ofName constants s
  | j => mismatch j identifier

def ofConstant {α : Type} (origin : Origin) (constants : Naming α) : Json → Except Mismatch α
  | .string s => ofName constants s
  | .object [(s, j)] => do
    let a ← ofName constants s
    if origin.isUnit j then return a else mismatch j "unit"
  | .object _ => .error (.wrongValue .map "map with a single key")
  | j => mismatch j "string or map"

def noneLeft : List (String × Json) → Except Mismatch Unit
  | [] => .ok ()
  | (name, _) :: _ => .error (.duplicateField name)

mutual

def ofJson : {α : Type} → Shape α → Origin → Json → Except Mismatch α
  | _, text, _, .string s => .ok s
  | _, text, _, j => mismatch j "a string"
  | _, flag, _, .bool b => .ok b
  | _, flag, _, j => mismatch j "a boolean"
  | _, integer width, _, .number n => ofNumber width n
  | _, integer width, _, j => mismatch j width.name
  | _, any, _, j => .ok j
  | _, list item, origin, .array js => js.mapM fun j => item.ofJson origin j
  | _, list _, _, j => mismatch j "a sequence"
  | _, choice constants, origin, j => ofConstant origin constants j
  | _, record title fields make _ _ _, origin, .array js => do
    let values ← ofItems fields (structOf title fields.count) origin 0 js
    if fields.count < js.length then .error (origin.tooLong js.length fields.count)
    else return make values
  | _, record _ fields make _ _ _, origin, .object members => do
    let values? ← members.foldlM (fun values? m => place fields origin values? m.1 m.2) fields.blank
    match fields.complete values? with
    | .ok values => return make values
    | .error name => .error (.missingField name)
  | _, record title _ _ _ _ _, _, j => mismatch j (recordNamed title)
  | _, tagged title kinds body make _ _, origin, .array js =>
    match js with
    | [] => .error (.wrongLength 0 (kindAndValue title))
    | k :: js' => do
      let k ← ofIdentifier kinds k
      match js' with
      | [] => .error (.wrongLength 1 (kindAndValue title))
      | v :: rest =>
        let v ← (body k).ofJson origin v
        if rest.isEmpty then return make k v else .error (origin.tooLong js.length 2)
  | _, tagged _ kinds body make _ _, origin, .object members =>
    match members.filter fun m => m.1 = kindName || m.1 = valueName with
    | [] => .error (.missingField kindName)
    | (name, j) :: rest =>
      if name = kindName then do
        let k ← ofConstant origin kinds j
        match rest with
        | [] => .error (.missingField valueName)
        | (name, v) :: rest =>
          if name = kindName then .error (.duplicateField kindName)
          else
            let v ← (body k).ofJson origin v
            noneLeft rest
            return make k v
      else
        match rest with
        | [] => .error (.missingField kindName)
        | (name, k) :: rest =>
          if name = valueName then .error (.duplicateField valueName)
          else do
            let k ← ofConstant origin kinds k
            let v ← (body k).ofJson .buffer j
            noneLeft rest
            return make k v
  | _, tagged title _ _ _ _ _, _, j => mismatch j (kindAndValue title)

def ofItems : {β π : Type} → Fields β π → (expected : String) → Origin → (read : Nat) → List Json → Except Mismatch β
  | _, _, .nil, _, _, _, _ => .ok ()
  | _, _, .cons .., expected, _, read, [] => .error (.wrongLength read expected)
  | _, _, .cons _ shape rest, expected, origin, read, j :: js => do
    let value ← shape.ofJson origin j
    let values ← ofItems rest expected origin (read + 1) js
    return (value, values)

def place : {β π : Type} → Fields β π → Origin → π → String → Json → Except Mismatch π
  | _, _, .nil, _, (), _, _ => .ok ()
  | _, _, .cons name shape rest, origin, (value?, values?), name', j =>
    if name' = name then
      match value? with
      | some _ => .error (.duplicateField name)
      | none => do return (some (← shape.ofJson origin j), values?)
    else do return (value?, ← place rest origin values? name' j)

end

end Shape

end OrderDesk
