import OrderDesk.Proofs.Registry.OwnIds
import OrderDesk.Registry.Cascade
import OrderDesk.Registry.Snapshot

/-!
# What a write does to a directory

A write changes the stores of some registries and leaves everything else about
the directory alone. `Rewrites` bounds what it changes by a list of ids; a
deletion rewrites the registries that it says it touched.
-/

namespace OrderDesk

namespace Directory

def shape (d : Directory) (id : String) : Option (EntityKind × Policy) := (d.get? id).map fun r => (r.kind, r.policy)

def listing (d : Directory) (id : String) : List Entity := ((d.get? id).map Registry.snapshot).getD []

def Owns (d : Directory) (id : String) : Prop := ∀ r, d.get? id = some r → r.Own

/-- A write keeps the ids, kinds and policies, and goes by own ids. -/
structure Keeps (d d' : Directory) : Prop where
  shape : d'.shape = d.shape
  owns : ∀ id, d.Owns id → d'.Owns id

/-- A write that changes no listing but those of the registries it touched. -/
structure Rewrites (d d' : Directory) (touched : List String) : Prop extends Keeps d d' where
  listing : ∀ id, id ∉ touched → d'.listing id = d.listing id

variable {d : Directory}

theorem owns_of_forall (h : ∀ r ∈ d.registries, r.Own) (id : String) : d.Owns id := fun r hr => h r (mem_of_get? hr)

theorem own_standard : ∀ r ∈ standard.registries, r.Own := by
  intro r hr
  simp only [standard, List.mem_cons, List.not_mem_nil, or_false] at hr
  rcases hr with rfl | rfl | rfl | rfl | rfl <;> exact Registry.own_standard _ _

theorem listing_of_get? {id : String} {r : Registry} (h : d.get? id = some r) : d.listing id = r.snapshot := by
  rw [listing, h]
  rfl

theorem shape_of_get? {id : String} {r : Registry} (h : d.get? id = some r) : d.shape id = some (r.kind, r.policy) := by
  rw [shape, h]
  rfl

theorem exists_of_shape {id : String} {k : EntityKind} {p : Policy} (h : d.shape id = some (k, p)) :
    ∃ r, d.get? id = some r ∧ r.kind = k ∧ r.policy = p := by
  obtain ⟨r, hr, he⟩ := Option.map_eq_some_iff.1 h
  cases he
  exact ⟨r, hr, rfl, rfl⟩

theorem orders?_eq_some_iff {r : Registry} :
    d.orders? = some r ↔ d.get? RegistryId.orders = some r ∧ r.kind = .order ∧ r.policy = .descendingOrderId :=
  typed?_eq_some_iff

theorem Keeps.refl (d : Directory) : d.Keeps d := ⟨rfl, fun _ => id⟩

theorem Keeps.trans {d' d'' : Directory} (h : d.Keeps d') (h' : d'.Keeps d'') : d.Keeps d'' :=
  ⟨h'.shape.trans h.shape, fun id => h'.owns id ∘ h.owns id⟩

/-- A registry owns its ids after a write if the one in its place did before. -/
theorem Keeps.own {d' : Directory} {q : Registry} (hk : d.Keeps d') (hq : q ∈ d'.registries)
    (h : ∀ r ∈ d.registries, r.id = q.id → r.kind = q.kind → r.policy = q.policy → r.Own) : q.Own := by
  have hget := get?_of_mem hq
  refine hk.owns q.id (fun r hr => ?_) q hget
  have hshape : some (r.kind, r.policy) = some (q.kind, q.policy) := by
    rw [← shape_of_get? hr, ← hk.shape, shape_of_get? hget]
  obtain ⟨hkind, hpolicy⟩ := Prod.mk.inj (Option.some.inj hshape)
  exact h r (mem_of_get? hr) (id_of_get? hr) hkind hpolicy

theorem Rewrites.refl (d : Directory) : d.Rewrites d [] := ⟨.refl d, fun _ _ => rfl⟩

section
variable {r : Registry} {f : Store (Element r.kind) → Store (Element r.kind)}

theorem get?_set_transact (hr : d.get? r.id = some r) (id : String) :
    (d.set (r.transact f)).get? id = if r.id = id then some (r.transact f) else d.get? id :=
  get?_set (r := r.transact f) hr id

theorem keeps_set_transact (hr : d.get? r.id = some r) (hown : r.Own → (r.transact f).Own) :
    d.Keeps (d.set (r.transact f)) where
  shape := by
    funext id
    rw [shape, shape, get?_set_transact hr]
    split
    · next hid =>
      rw [← hid, hr]
      rfl
    · rfl
  owns id h r' hr' := by
    rw [get?_set_transact hr] at hr'
    split at hr'
    · next hid =>
      cases hr'
      exact hown (h r (hid ▸ hr))
    · exact h r' hr'

theorem keeps_set_upsert (hr : d.get? r.id = some r) (e : Element r.kind) : d.Keeps (d.set (r.upsert e)) :=
  keeps_set_transact hr fun h => h.upsert e

theorem keeps_set_replaceAll (hr : d.get? r.id = some r) (es : List (Element r.kind)) :
    d.Keeps (d.set (r.replaceAll es)) :=
  keeps_set_transact hr fun _ => r.own_replaceAll es

theorem listing_set_transact (hr : d.get? r.id = some r) (id : String) :
    (d.set (r.transact f)).listing id = if r.id = id then (r.transact f).snapshot else d.listing id := by
  rw [listing, get?_set_transact hr]
  split <;> rfl

theorem listing_set_upsert (hr : d.get? r.id = some r) (e : Element r.kind) (id : String) :
    (d.set (r.upsert e)).listing id = if r.id = id then (r.upsert e).snapshot else d.listing id :=
  listing_set_transact hr id

theorem listing_set_replaceAll (hr : d.get? r.id = some r) (es : List (Element r.kind)) (id : String) :
    (d.set (r.replaceAll es)).listing id = if r.id = id then (r.replaceAll es).snapshot else d.listing id :=
  listing_set_transact hr id

theorem rewrites_set_upsert (hr : d.get? r.id = some r) (e : Element r.kind) :
    d.Rewrites (d.set (r.upsert e)) [r.id] where
  toKeeps := keeps_set_upsert hr e
  listing id hid := by
    rw [listing_set_upsert hr, if_neg fun h => hid (List.mem_singleton.2 h.symm)]

theorem rewrites_set_replaceAll (hr : d.get? r.id = some r) (es : List (Element r.kind)) :
    d.Rewrites (d.set (r.replaceAll es)) [r.id] where
  toKeeps := keeps_set_replaceAll hr es
  listing id hid := by
    rw [listing_set_replaceAll hr, if_neg fun h => hid (List.mem_singleton.2 h.symm)]

end

end Directory

/-! ## Deleting -/

namespace Registry

variable {kind : EntityKind}

theorem not_mem_ids_of_has {r : Registry} {id : String} (h : r.has id = false) : id ∉ Entries.ids r.store.toList := by
  intro hid
  obtain ⟨e, he⟩ := Entries.mem_ids.1 hid
  have hget : r.get? id = some e := r.store.get?_eq_some_iff.2 he
  rw [has, hget] at h
  cases h

theorem toList_foldl_erase (store : Store (Element kind)) (ids : List String) :
    (ids.foldl (·.erase ·) store).toList = ids.foldl (fun l id => Entries.remove id l) store.toList := by
  induction ids generalizing store with
  | nil => rfl
  | cons id ids ih => rw [List.foldl_cons, List.foldl_cons, ih, Store.toList_erase]

theorem foldl_remove_of_not_mem {l : List (String × Element kind)} {ids : List String}
    (h : ∀ id ∈ ids, id ∉ Entries.ids l) : ids.foldl (fun l id => Entries.remove id l) l = l := by
  induction ids with
  | nil => rfl
  | cons id ids ih =>
    rw [List.foldl_cons, Entries.remove_of_not_mem (h id List.mem_cons_self)]
    exact ih fun id' hid' => h id' (List.mem_cons_of_mem id hid')

theorem own_foldl_remove {l : List (String × Element kind)} (h : Entries.Own l) (ids : List String) :
    Entries.Own (ids.foldl (fun l id => Entries.remove id l) l) := by
  induction ids generalizing l with
  | nil => exact h
  | cons id ids ih => exact ih (h.remove id)

end Registry

namespace Deletion

/-- A deletion that is under way. What it has not touched is listed as before,
and orders only go. -/
structure From (d : Directory) (x : Deletion) : Prop where
  rewrites : d.Rewrites x.directory x.touched
  orders : ∀ id o, .order o ∈ x.directory.listing id → .order o ∈ d.listing id

variable {d : Directory} {x : Deletion}

theorem from_start (d : Directory) : From d (start d) := ⟨.refl d, fun _ _ => id⟩

theorem From.put (h : From d x) {r : Registry} {f : Store (Element r.kind) → Store (Element r.kind)} {lost : Bool}
    (hr : x.directory.get? r.id = some r) (hown : r.Own → (r.transact f).Own)
    (hlost : lost = false → (f r.store).toList = r.store.toList)
    (horders : r.kind = .order → ∀ p ∈ (f r.store).toList, p ∈ r.store.toList) : From d (x.put (r.transact f) lost) where
  rewrites := {
    toKeeps := h.rewrites.toKeeps.trans (Directory.keeps_set_transact hr hown)
    listing := fun id hid => by
      have hmem : id ∉ x.touched ∧ (r.id = id → lost = false) := by
        cases lost with
        | false => exact ⟨hid, fun _ => rfl⟩
        | true => exact ⟨fun hx => hid (List.mem_append_left _ hx),
            fun hrid => absurd (List.mem_append_right _ (List.mem_singleton.2 hrid.symm)) hid⟩
      rw [← h.rewrites.listing id hmem.1]
      refine (Directory.listing_set_transact hr id).trans ?_
      split
      · next hrid =>
        rw [← hrid, Directory.listing_of_get? hr, Registry.snapshot_eq, Registry.snapshot_eq]
        exact congrArg (fun l => (r.policy.arrange (Entries.values l)).map (·.entity)) (hlost (hmem.2 hrid))
      · rfl }
  orders id o ho := by
    refine h.orders id o ?_
    have ho' : .order o ∈ (x.directory.set (r.transact f)).listing id := ho
    rw [Directory.listing_set_transact hr] at ho'
    split at ho'
    · next hrid =>
      obtain ⟨p, hp, he⟩ := Registry.mem_snapshot.1 ho'
      have hkind : r.kind = .order := p.2.property.symm.trans (congrArg Entity.kind he)
      rw [← hrid, Directory.listing_of_get? hr]
      exact Registry.mem_snapshot.2 ⟨p, horders hkind p hp, he⟩
    · exact ho'

theorem From.evict (h : From d x) {r : Registry} (hr : x.directory.get? r.id = some r) (id : String) :
    From d (x.evict r id) := by
  have hlist : (r.store.erase id).toList = Entries.remove id r.store.toList := r.store.toList_erase id
  refine h.put (f := fun store => store.erase id) hr ?_ ?_ ?_
  · intro hown
    have := hown.remove id
    rwa [← hlist] at this
  · intro hhas
    exact hlist.trans (Entries.remove_of_not_mem (Registry.not_mem_ids_of_has hhas))
  · intro _ p hp
    rw [hlist] at hp
    exact (Entries.mem_remove.1 hp).1

theorem From.stripMenu (h : From d x) (menuId : String) : From d (x.stripMenu menuId) := by
  unfold Deletion.stripMenu
  split
  · exact h
  · next r hr =>
    obtain ⟨hget, hkind, -⟩ := Directory.typed?_eq_some_iff.1 hr
    have hlist : (Registry.fileAll r.policy r.store (Registry.stripped r.store menuId)).toList =
        Registry.Listing.fileAll r.policy r.store.toList (Registry.stripped r.store menuId) :=
      Registry.toList_fileAll _ _ _
    refine h.put (f := fun store => Registry.fileAll r.policy store (Registry.stripped store menuId))
      (Directory.get?_self hget) ?_ ?_ ?_
    · intro hown
      have := Entries.Own.listingFileAll hown r.policy (Registry.stripped r.store menuId)
      rwa [← hlist] at this
    · intro hnone
      have hnil : Registry.stripped r.store menuId = [] := by simpa using hnone
      rw [hlist, hnil]
      rfl
    · intro horder
      cases hkind.symm.trans horder

theorem From.dropMenusOf (h : From d x) (category : Category) : From d (x.dropMenusOf category) := by
  unfold Deletion.dropMenusOf
  split
  · exact h
  · next r hr =>
    obtain ⟨hget, hkind, -⟩ := Directory.typed?_eq_some_iff.1 hr
    have hlist := Registry.toList_foldl_erase r.store (Registry.menusOf r.store category)
    refine h.put (f := fun store => (Registry.menusOf store category).foldl (·.erase ·) store)
      (Directory.get?_self hget) ?_ ?_ ?_
    · intro hown
      have := Registry.own_foldl_remove hown (Registry.menusOf r.store category)
      rwa [← hlist] at this
    · intro hnone
      refine hlist.trans (Registry.foldl_remove_of_not_mem fun id hid => ?_)
      exact Registry.not_mem_ids_of_has (by simpa using List.any_eq_false.1 hnone id hid)
    · intro horder
      cases hkind.symm.trans horder

end Deletion

namespace Directory

/-- **Deletion.** A deletion rewrites what it touched, and adds no order. -/
theorem delete_from {d : Directory} {registryId entityId : String} {x : Deletion}
    (h : d.delete registryId entityId = .ok x) : Deletion.From d x := by
  unfold delete at h
  cases hr : d.require registryId with
  | error e =>
    rw [hr] at h
    cases h
  | ok r =>
    rw [hr] at h
    cases h
    have hevict := (Deletion.from_start d).evict (get?_self (require_eq_ok_iff.1 hr)) entityId
    cases r.kind with
    | menu => exact hevict.stripMenu entityId
    | category =>
      cases r.category? entityId with
      | some category => exact hevict.dropMenusOf category
      | none => exact hevict
    | order | menuOption | optionGroup => exact hevict

end Directory

/-! ## Loading and filing -/

namespace Registry

theorem entity_of_ofEntity? {kind : EntityKind} {x : Entity} {e : Element kind} (h : Element.ofEntity? kind x = some e) :
    e.entity = x := by
  unfold Element.ofEntity? at h
  split at h
  · cases h
    rfl
  · cases h

theorem entity_of_element {r : Registry} {x : Entity} {e : Element r.kind} (h : r.element x = .ok e) : e.entity = x := by
  unfold element at h
  split at h
  · next he =>
    cases h
    exact entity_of_ofEntity? he
  · cases h

theorem entities_of_elements {r : Registry} {xs : List Entity} {es : List (Element r.kind)}
    (h : r.elements xs = .ok es) : es.map (·.entity) = xs := by
  induction xs generalizing es with
  | nil =>
    cases h
    rfl
  | cons x xs ih =>
    rw [elements, List.mapM_cons] at h
    cases hx : r.element x with
    | error _ =>
      rw [hx] at h
      cases h
    | ok e =>
      rw [hx] at h
      cases hxs : r.elements xs with
      | error _ =>
        rw [elements] at hxs
        rw [hxs] at h
        cases h
      | ok es' =>
        have htail := ih hxs
        rw [elements] at hxs
        rw [hxs] at h
        cases h
        rw [List.map_cons, entity_of_element hx, htail]

theorem upsertEntity_eq_ok {r r' : Registry} {x : Entity} (h : r.upsertEntity x = .ok r') :
    ∃ e : Element r.kind, e.entity = x ∧ r' = r.upsert e := by
  unfold upsertEntity at h
  cases he : r.element x with
  | error _ =>
    rw [he] at h
    cases h
  | ok e =>
    rw [he] at h
    cases h
    exact ⟨e, entity_of_element he, rfl⟩

theorem exists_upsertEntity_order {r : Registry} (hk : r.kind = .order) (o : Order) :
    ∃ e : Element r.kind, e.entity = .order o ∧ r.upsertEntity (.order o) = .ok (r.upsert e) := by
  have he : Element.ofEntity? r.kind (.order o) = some ⟨.order o, hk.symm⟩ :=
    Element.ofEntity?_entity ⟨.order o, hk.symm⟩
  refine ⟨⟨.order o, hk.symm⟩, rfl, ?_⟩
  rw [upsertEntity, element, he]
  rfl

end Registry

namespace Directory

theorem load_eq_ok {d d' : Directory} {snapshot : ResponseData} (h : d.load snapshot = .ok d') :
    ∃ r, d.get? snapshot.registryId = some r ∧
      ∃ es : List (Element r.kind), es.map (·.entity) = snapshot.entities ∧ d' = d.set (r.replaceAll es) := by
  unfold load at h
  cases hr : d.require snapshot.registryId with
  | error _ =>
    rw [hr] at h
    cases h
  | ok r =>
    refine ⟨r, require_eq_ok_iff.1 hr, ?_⟩
    rw [hr] at h
    cases hes : r.elements snapshot.entities with
    | error _ =>
      simp only [Registry.replaceEntities, hes, bind, Except.bind] at h
      cases h
    | ok es =>
      simp only [Registry.replaceEntities, hes, bind, Except.bind] at h
      cases h
      exact ⟨es, Registry.entities_of_elements hes, rfl⟩

end Directory

end OrderDesk
