import OrderDesk.Registry.Error
import OrderDesk.Registry.Store
import OrderDesk.Text.Quoted

/-!
# Registries

A registry is a named store of entities of one kind. Its policy says under
which id an entity is filed and in which order a snapshot lists the entities.
A frozen registry refuses direct changes; a transaction changes it all the
same and leaves it frozen.
-/

namespace OrderDesk

inductive Policy
  /-- Entities are filed under the id that is proposed and listed in the order
  of their slots. -/
  | replaceById
  /-- Orders are filed under their number, whatever is proposed, and listed
  from the highest number down. -/
  | descendingOrderId
  deriving DecidableEq, Repr

namespace Policy

variable {kind : EntityKind}

def fileUnder (policy : Policy) (proposed : String) (e : Element kind) : String :=
  match policy with
  | replaceById => proposed
  | descendingOrderId => e.id

def number (e : Element kind) : Int64 := e.entity.number

def insertDescending (e : Element kind) : List (Element kind) → List (Element kind)
  | [] => [e]
  | x :: xs => if number e < number x then x :: insertDescending e xs else e :: x :: xs

def arrange (policy : Policy) (es : List (Element kind)) : List (Element kind) :=
  match policy with
  | replaceById => es
  | descendingOrderId => es.foldr insertDescending []

end Policy

structure Registry where
  id : String
  kind : EntityKind
  policy : Policy
  frozen : Bool
  store : Store (Element kind)
  kind_of_descending : policy = .descendingOrderId → kind = .order

namespace Registry

def empty (id : String) (kind : EntityKind) (policy : Policy) (h : policy = .descendingOrderId → kind = .order) :
    Registry where
  id
  kind
  policy
  frozen := false
  store := .empty
  kind_of_descending := h

def standard (id : String) (kind : EntityKind) : Registry :=
  if h : kind = .order then empty id kind .descendingOrderId fun _ => h else empty id kind .replaceById nofun

/-! ## Looking up -/

def get? (r : Registry) (id : String) : Option (Element r.kind) := r.store.get? id

def all (r : Registry) : List (Element r.kind) := r.policy.arrange r.store.values

def size (r : Registry) : Nat := r.store.size

def snapshot (r : Registry) : List Entity := r.all.map (·.entity)

def entries (r : Registry) : List (String × Entity) := r.store.toList.map fun p => (p.1, p.2.entity)

def summary (r : Registry) : String :=
  "Registry \x7b registry_id: " ++ Text.quoted r.id ++ ", kind: " ++ r.kind.label ++ ", len: " ++
    Decimal.render r.size ++ ", frozen: " ++ (if r.frozen then "true" else "false") ++ " \x7d"

/-! ## Filing -/

section
variable {kind : EntityKind}

def file (policy : Policy) (store : Store (Element kind)) (proposed : String) (e : Element kind) :
    Store (Element kind) :=
  store.insert (policy.fileUnder proposed e) e

def fileAll (policy : Policy) (store : Store (Element kind)) (es : List (Element kind)) : Store (Element kind) :=
  es.foldl (fun store e => file policy store e.id e) store

end

/-! ## Changes that a frozen registry refuses -/

def freeze (r : Registry) : Registry := { r with frozen := true }

def unfreeze (r : Registry) : Registry := { r with frozen := false }

/-- Changes the store, unless the registry is frozen. -/
def change (r : Registry) (f : Store (Element r.kind) → Store (Element r.kind)) : Except RegistryError Registry :=
  if r.frozen then .error (.frozen r.id) else .ok { r with store := f r.store }

def add (r : Registry) (id : String) (e : Element r.kind) : Except RegistryError Registry :=
  r.change fun store => file r.policy store id e

def addAll (r : Registry) (es : List (Element r.kind)) : Except RegistryError Registry :=
  r.change fun store => fileAll r.policy store es

def has (r : Registry) (id : String) : Bool := (r.get? id).isSome

def remove (r : Registry) (id : String) : Except RegistryError Registry := r.change fun store => store.erase id

def clear (r : Registry) : Except RegistryError Registry := r.change fun _ => .empty

/-! ## Transactions -/

/-- Changes the store, frozen or not, and leaves the registry frozen. -/
def transact (r : Registry) (f : Store (Element r.kind) → Store (Element r.kind)) : Registry :=
  { r with store := f r.store, frozen := true }

def replaceAll (r : Registry) (es : List (Element r.kind)) : Registry :=
  r.transact fun _ => fileAll r.policy .empty es

def upsert (r : Registry) (e : Element r.kind) : Registry := r.transact fun store => file r.policy store e.id e

def evict (r : Registry) (id : String) : Registry := r.transact fun store => store.erase id

/-! ## Entities whose kind is not known -/

def element (r : Registry) (e : Entity) : Except RegistryError (Element r.kind) :=
  match Element.ofEntity? r.kind e with
  | some e => .ok e
  | none => .error (.typeMismatch r.id r.kind e.kind)

def elements (r : Registry) (es : List Entity) : Except RegistryError (List (Element r.kind)) := es.mapM r.element

def addEntity (r : Registry) (id : String) (e : Entity) : Except RegistryError Registry := do
  r.add id (← r.element e)

def addEntities (r : Registry) (es : List Entity) : Except RegistryError Registry := do
  r.addAll (← r.elements es)

def replaceEntities (r : Registry) (es : List Entity) : Except RegistryError Registry :=
  r.replaceAll <$> r.elements es

def upsertEntity (r : Registry) (e : Entity) : Except RegistryError Registry := r.upsert <$> r.element e

end Registry

end OrderDesk
