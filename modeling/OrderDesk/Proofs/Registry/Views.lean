import OrderDesk.Proofs.Registry.Writes

/-!
# What can be seen of a directory

A store keeps records of how its entities are found, which may differ between
two stores that hold the same. A view leaves them out: it says what is filed in
a registry, slot by slot, and whether the registry is frozen. Two directories
with the same views cannot be told apart.
-/

namespace OrderDesk

/-! ## Filing twice -/

namespace Entries

variable {α : Type} {l : List (String × α)} {id : String} {a : α}

theorem put_put (l : List (String × α)) (id : String) (a : α) : put id a (put id a l) = put id a l := by
  have hmem : id ∈ ids (put id a l) := mem_ids_of_mem (mem_put.2 (.inl rfl))
  rw [put, if_pos hmem]
  refine (List.map_congr_left fun p hp => ?_).trans (List.map_id _)
  split
  · next hid =>
    rcases mem_put.1 hp with rfl | ⟨-, hne⟩
    · rfl
    · exact absurd hid hne
  · rfl

theorem release_file [DecidableEq α] (l : List (String × α)) (id : String) (a : α) :
    release id a (file id a l) = file id a l := by
  refine List.filter_eq_self.2 fun p hp => decide_eq_true ?_
  rintro ⟨ha, hid⟩
  rcases mem_file.1 hp with rfl | ⟨-, -, hne⟩
  · exact hid rfl
  · exact hne ha

theorem file_file [DecidableEq α] (l : List (String × α)) (id : String) (a : α) :
    file id a (file id a l) = file id a l := by
  show put id a (release id a (file id a l)) = file id a l
  rw [release_file]
  exact put_put _ id a

theorem remove_remove (l : List (String × α)) (id : String) : remove id (remove id l) = remove id l := by
  simp [remove]

end Entries

/-! ## Views -/

namespace Registry

structure View where
  id : String
  kind : EntityKind
  policy : Policy
  frozen : Bool
  /-- The entities with the ids under which they are filed, in the order of
  their slots. -/
  entries : List (String × Entity)
  deriving DecidableEq, Repr

def view (r : Registry) : View := ⟨r.id, r.kind, r.policy, r.frozen, r.entries⟩

def untyped {kind : EntityKind} (l : List (String × Element kind)) : List (String × Entity) :=
  l.map fun p => (p.1, p.2.entity)

variable {r : Registry} {f : Store (Element r.kind) → Store (Element r.kind)}

theorem view_transact (r : Registry) (f : Store (Element r.kind) → Store (Element r.kind)) :
    (r.transact f).view = { r.view with frozen := true, entries := untyped (f r.store).toList } := rfl

theorem view_transact_eq (hfrozen : r.frozen = true) (hlist : (f r.store).toList = r.store.toList) :
    (r.transact f).view = r.view := by
  rw [view_transact, hlist, ← hfrozen]
  rfl

theorem toList_upsert (r : Registry) (e : Element r.kind) :
    (r.upsert e).store.toList = Entries.file e.id e r.store.toList := by
  show (file r.policy r.store e.id e).toList = _
  rw [toList_file, Listing.file, Entries.fileUnder_own]

/-- An entity that is taken up twice is there as if it had been taken up once. -/
theorem view_upsert_upsert (r : Registry) (e : Element r.kind) : ((r.upsert e).upsert e).view = (r.upsert e).view := by
  refine view_transact_eq (r := r.upsert e) rfl ?_
  show ((r.upsert e).upsert e).store.toList = (r.upsert e).store.toList
  rw [toList_upsert (r.upsert e) e, toList_upsert]
  exact Entries.file_file _ _ _

theorem upsertEntity_entity (r : Registry) (e : Element r.kind) : r.upsertEntity e.entity = .ok (r.upsert e) := by
  rw [upsertEntity, element, Element.ofEntity?_entity]
  rfl

theorem replaceEntities_entities (r : Registry) (es : List (Element r.kind)) :
    r.replaceEntities (es.map (·.entity)) = .ok (r.replaceAll es) := by
  rw [replaceEntities, elements_map]
  rfl

end Registry

namespace Directory

variable {d : Directory}

def views (d : Directory) : List Registry.View := d.registries.map Registry.view

/-- What is filed in the registry of an id. -/
def contents (d : Directory) (id : String) : List (String × Entity) := ((d.get? id).map Registry.entries).getD []

theorem eq_of_id {q r : Registry} (hq : q ∈ d.registries) (hr : r ∈ d.registries) (h : q.id = r.id) : q = r :=
  Entries.eq_of_nodup_map d.ids_nodup hq hr h

theorem views_set {r r' : Registry} (hr : d.get? r.id = some r) (hid : r'.id = r.id) (hview : r'.view = r.view) :
    (d.set r').views = d.views := by
  show (replaced r' d.registries).map Registry.view = d.registries.map Registry.view
  rw [replaced, List.map_map]
  refine List.map_congr_left fun q hq => ?_
  simp only [Function.comp_apply]
  split
  · next h => rw [hview, eq_of_id hq (mem_of_get? hr) (h.trans hid)]
  · rfl

theorem get?_set_self {r : Registry} {f : Store (Element r.kind) → Store (Element r.kind)} {id : String}
    (hr : d.get? id = some r) : (d.set (r.transact f)).get? id = some (r.transact f) := by
  rw [get?_set_transact (get?_self hr)]
  exact if_pos (id_of_get? hr)

end Directory

end OrderDesk
