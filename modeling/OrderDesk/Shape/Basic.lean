import OrderDesk.Json.Basic
import OrderDesk.Shape.Naming
import OrderDesk.Shape.Width

/-!
# Shapes

The declared shape of a type of values: how its values are written as JSON and
what JSON stands for them. A shape is data, so that printing and the readers
are each written once and not once for every type.
-/

namespace OrderDesk

mutual

inductive Shape : Type → Type 1
  | text : Shape String
  | flag : Shape Bool
  | integer {α : Type} (width : Width α) : Shape α
  | any : Shape Json
  | list {α : Type} (item : Shape α) : Shape (List α)
  | choice {α : Type} (constants : Naming α) : Shape α
  | record {α β π : Type} (title : String) (fields : Fields β π) (make : β → α) (parts : α → β)
      (make_parts : ∀ a, make (parts a) = a) (parts_make : ∀ b, parts (make b) = b) : Shape α
  /-- A value with its kind, under the names `kind` and `value`; the kind says
  which shape the value has. -/
  | tagged {κ α : Type} {γ : κ → Type} (title : String) (kinds : Naming κ) (body : (k : κ) → Shape (γ k))
      (make : (k : κ) → γ k → α) (split : α → (k : κ) × γ k)
      (make_split : ∀ a, make (split a).1 (split a).2 = a) : Shape α

/-- The fields of a structure: the product of their types, and the product
that has a place for each field that was read. -/
inductive Fields : Type → Type → Type 1
  | nil : Fields Unit Unit
  | cons {α β π : Type} (name : String) (shape : Shape α) (rest : Fields β π) : Fields (α × β) (Option α × π)

end

namespace Fields

def count : {β π : Type} → Fields β π → Nat
  | _, _, nil => 0
  | _, _, cons _ _ rest => rest.count + 1

def blank : {β π : Type} → Fields β π → π
  | _, _, nil => ()
  | _, _, cons _ _ rest => (none, rest.blank)

def complete : {β π : Type} → Fields β π → π → Except String β
  | _, _, nil, () => .ok ()
  | _, _, cons name _ rest, (value?, values?) =>
    match value? with
    | none => .error name
    | some value => (fun values => (value, values)) <$> rest.complete values?

end Fields

namespace Shape

def kindName : String := "kind"

def valueName : String := "value"

mutual

def toJson : {α : Type} → Shape α → α → Json
  | _, text, s => .string s
  | _, flag, b => .bool b
  | _, integer width, a => .number (.integer (width.toInt a))
  | _, any, j => j
  | _, list item, as => .array (as.map fun a => item.toJson a)
  | _, choice constants, a => .string (constants.name a)
  | _, record _ fields _ parts _ _, a => .object (fieldsToJson fields (parts a))
  | _, tagged _ kinds body _ split _, a =>
    .object [(kindName, .string (kinds.name (split a).1)), (valueName, (body (split a).1).toJson (split a).2)]

def fieldsToJson : {β π : Type} → Fields β π → β → List (String × Json)
  | _, _, .nil, () => []
  | _, _, .cons name shape rest, (value, values) => (name, shape.toJson value) :: fieldsToJson rest values

end

end Shape

end OrderDesk
