import OrderDesk.Registry.Directory

/-!
# Deleting with what refers to it

Deleting a menu takes it out of every category that lists it. Deleting a
category takes its menus along: those that name it as theirs and those that it
lists. Entities of other kinds go alone.
-/

namespace OrderDesk

namespace Element

variable {kind : EntityKind}

def withoutMenu? (menuId : String) : {kind : EntityKind} → Element kind → Option (Element kind)
  | .category, e => (e.category.withoutMenu menuId).map ofCategory
  | _, _ => none

/-- Whether the entity is a menu of a category: it names the category as its
own or is listed by it. -/
def belongsTo (category : Category) (e : Element kind) : Bool :=
  match e.entity with
  | .menu m => m.categoryId = category.id || category.lists m.id
  | _ => false

end Element

namespace Registry

variable {kind : EntityKind}

def stripped (store : Store (Element kind)) (menuId : String) : List (Element kind) :=
  store.values.filterMap (Element.withoutMenu? menuId)

def stripMenu (r : Registry) (menuId : String) : Registry :=
  r.transact fun store => fileAll r.policy store (stripped store menuId)

def menusOf (store : Store (Element kind)) (category : Category) : List String :=
  (store.values.filter (Element.belongsTo category)).map (·.id)

def dropMenusOf (r : Registry) (category : Category) : Registry :=
  r.transact fun store => (menusOf store category).foldl (·.erase ·) store

def category? (r : Registry) (id : String) : Option Category :=
  (r.get? id).bind fun e =>
    match e.entity with
    | .category c => some c
    | _ => none

end Registry

/-- A directory after a deletion, with the ids of the registries that lost
something, in the order in which they did. -/
structure Deletion where
  directory : Directory
  touched : List String

namespace Deletion

def start (d : Directory) : Deletion := ⟨d, []⟩

def put (x : Deletion) (r : Registry) (lost : Bool) : Deletion :=
  ⟨x.directory.set r, if lost then x.touched ++ [r.id] else x.touched⟩

def evict (x : Deletion) (r : Registry) (id : String) : Deletion := x.put (r.evict id) (r.has id)

def stripMenu (x : Deletion) (menuId : String) : Deletion :=
  match x.directory.categories? with
  | none => x
  | some r => x.put (r.stripMenu menuId) (Registry.stripped r.store menuId ≠ [])

def dropMenusOf (x : Deletion) (category : Category) : Deletion :=
  match x.directory.menus? with
  | none => x
  | some r => x.put (r.dropMenusOf category) ((Registry.menusOf r.store category).any r.has)

end Deletion

/-- Deletes what is filed under an id in a registry, and everything that
referred to it. -/
def Directory.delete (d : Directory) (registryId entityId : String) : Except RegistryError Deletion := do
  let r ← d.require registryId
  let x := (Deletion.start d).evict r entityId
  return match r.kind with
    | .menu => x.stripMenu entityId
    | .category =>
      match r.category? entityId with
      | some category => x.dropMenusOf category
      | none => x
    | .order | .menuOption | .optionGroup => x

end OrderDesk
