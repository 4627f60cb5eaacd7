import OrderDesk.Registry.Basic
import OrderDesk.Registry.Id
import Std.Data.TreeMap

/-!
# Directories

The registries of a node, in slots that keep the order in which they were
registered, and the slot of every id. No two registries have the same id, and
none has the id that stands for all of them.
-/

namespace OrderDesk

namespace Directory

/-- The slots of ids that come in this order. -/
def slotsOf (ids : List String) : Std.TreeMap String Nat := .ofList ids.zipIdx

theorem slotsOf_concat (ids : List String) (id : String) :
    slotsOf (ids ++ [id]) = (slotsOf ids).insert id ids.length := by
  rw [slotsOf, slotsOf, Std.TreeMap.ofList_eq_insertMany_empty, Std.TreeMap.ofList_eq_insertMany_empty,
    List.zipIdx_append, Std.TreeMap.insertMany_append, Nat.zero_add]
  exact Std.TreeMap.insertMany_list_singleton

theorem getElem?_slotsOf {ids : List String} (h : ids.Nodup) (id : String) (i : Nat) :
    (slotsOf ids)[id]? = some i ↔ ids[i]? = some id := by
  have hdistinct : ids.zipIdx.Pairwise fun p q => ¬compare p.1 q.1 = .eq := by
    have hids : (ids.zipIdx.map (·.1)).Nodup := by rwa [List.zipIdx_map_fst]
    exact (List.pairwise_map.1 hids).imp fun hne heq => hne (Std.compare_eq_iff_eq.1 heq)
  have hslot : ∀ {j : Nat}, ids[j]? = some id → (slotsOf ids)[id]? = some j := fun hj =>
    Std.TreeMap.getElem?_ofList_of_mem (Std.compare_eq_iff_eq.2 rfl) hdistinct (List.mk_mem_zipIdx_iff_getElem?.2 hj)
  refine ⟨fun hi => ?_, hslot⟩
  by_cases hid : id ∈ ids
  · obtain ⟨j, hj⟩ := List.mem_iff_getElem?.1 hid
    cases hi.symm.trans (hslot hj)
    exact hj
  · have hnone : (slotsOf ids)[id]? = none :=
      Std.TreeMap.getElem?_ofList_of_contains_eq_false (by simpa [List.zipIdx_map_fst] using hid)
    cases hi.symm.trans hnone

end Directory

structure Directory where
  /-- The registries, each in its slot. -/
  registries : List Registry
  /-- The slot of every id. It is what registering one after the other makes of it. -/
  index : Std.TreeMap String Nat := Directory.slotsOf (registries.map (·.id))
  indexed : index = Directory.slotsOf (registries.map (·.id)) := by rfl
  ids_nodup : (registries.map (·.id)).Nodup
  all_not_mem : RegistryId.all ∉ registries.map (·.id)

namespace Directory

def empty : Directory where
  registries := []
  ids_nodup := by simp
  all_not_mem := by simp

def ids (d : Directory) : List String := d.registries.map (·.id)

def slot? (d : Directory) (id : String) : Option Nat := d.index[id]?

theorem slot?_eq_some_iff {d : Directory} {id : String} {i : Nat} : d.slot? id = some i ↔ d.ids[i]? = some id := by
  rw [slot?, d.indexed]
  exact getElem?_slotsOf d.ids_nodup id i

theorem slot?_of_getElem? {d : Directory} {i : Nat} {r : Registry} (h : d.registries[i]? = some r) :
    d.slot? r.id = some i := by
  rw [slot?_eq_some_iff, ids, List.getElem?_map, h]
  rfl

theorem mem_index_iff {d : Directory} {id : String} : id ∈ d.index ↔ id ∈ d.ids := by
  rw [Std.TreeMap.mem_iff_isSome_getElem?, Option.isSome_iff_exists, List.mem_iff_getElem?]
  exact exists_congr fun i => slot?_eq_some_iff

/-! ## Registering -/

/-- Adds a registry in a new slot, unless its id is taken or reserved. -/
def register (d : Directory) (r : Registry) : Except RegistryError Directory :=
  if h : r.id = RegistryId.all ∨ r.id ∈ d.index then .error (.duplicateRegistry r.id)
  else
    .ok {
      registries := d.registries ++ [r]
      index := d.index.insert r.id d.registries.length
      indexed := by rw [List.map_append, List.map_singleton, slotsOf_concat, d.indexed, List.length_map]
      ids_nodup := by
        rw [List.map_append, List.map_singleton, List.nodup_append]
        refine ⟨d.ids_nodup, by simp, fun id hid id' hid' heq => h (.inr (mem_index_iff.2 ?_))⟩
        rwa [← List.mem_singleton.1 hid', ← heq]
      all_not_mem := by
        have hall : RegistryId.all ≠ r.id := fun heq => h (.inl heq.symm)
        simpa [hall] using d.all_not_mem }

theorem ext_registries {d d' : Directory} (h : d.registries = d'.registries) : d = d' := by
  obtain ⟨rs, index, hindex, _, _⟩ := d
  obtain ⟨rs', index', hindex', _, _⟩ := d'
  cases h
  cases hindex
  cases hindex'
  rfl

theorem register_eq_ok_iff {d d' : Directory} {r : Registry} :
    d.register r = .ok d' ↔ r.id ≠ RegistryId.all ∧ r.id ∉ d.ids ∧ d'.registries = d.registries ++ [r] := by
  rw [← mem_index_iff, ← and_assoc, ← not_or]
  unfold register
  split
  · next h => exact iff_of_false nofun fun hnew => hnew.1 h
  · next h =>
    refine ⟨fun hok => ?_, fun hnew => congrArg Except.ok (ext_registries hnew.2.symm)⟩
    cases hok
    exact ⟨h, rfl⟩

theorem register_eq_error_iff {d : Directory} {r : Registry} {e : RegistryError} :
    d.register r = .error e ↔ (r.id = RegistryId.all ∨ r.id ∈ d.ids) ∧ e = .duplicateRegistry r.id := by
  rw [← mem_index_iff]
  unfold register
  split
  · next h => exact ⟨fun heq => ⟨h, (Except.error.inj heq).symm⟩, fun herror => congrArg Except.error herror.2.symm⟩
  · next h => exact iff_of_false nofun fun herror => h herror.1

/-! ## Looking up -/

def get? (d : Directory) (id : String) : Option Registry := (d.slot? id).bind (d.registries[·]?)

theorem get?_eq_some_iff {d : Directory} {id : String} {r : Registry} :
    d.get? id = some r ↔ r ∈ d.registries ∧ r.id = id := by
  rw [get?, Option.bind_eq_some_iff, List.mem_iff_getElem?]
  constructor
  · rintro ⟨i, hslot, hi⟩
    have hid := slot?_eq_some_iff.1 hslot
    rw [ids, List.getElem?_map, hi] at hid
    exact ⟨⟨i, hi⟩, Option.some.inj hid⟩
  · rintro ⟨⟨i, hi⟩, rfl⟩
    exact ⟨i, slot?_of_getElem? hi, hi⟩

theorem id_of_get? {d : Directory} {id : String} {r : Registry} (h : d.get? id = some r) : r.id = id :=
  (get?_eq_some_iff.1 h).2

theorem mem_of_get? {d : Directory} {id : String} {r : Registry} (h : d.get? id = some r) : r ∈ d.registries :=
  (get?_eq_some_iff.1 h).1

theorem get?_of_mem {d : Directory} {r : Registry} (h : r ∈ d.registries) : d.get? r.id = some r :=
  get?_eq_some_iff.2 ⟨h, rfl⟩

theorem get?_self {d : Directory} {id : String} {r : Registry} (h : d.get? id = some r) : d.get? r.id = some r :=
  get?_of_mem (mem_of_get? h)

def require (d : Directory) (id : String) : Except RegistryError Registry :=
  match d.get? id with
  | some r => .ok r
  | none => .error (.unknownRegistry id)

theorem require_eq_ok_iff {d : Directory} {id : String} {r : Registry} : d.require id = .ok r ↔ d.get? id = some r := by
  unfold require
  split
  · next h => simp [h]
  · next h => simp [h]

/-! ## Changing -/

def replaced (r : Registry) (rs : List Registry) : List Registry := rs.map fun x => if x.id = r.id then r else x

theorem ids_replaced (r : Registry) (rs : List Registry) : (replaced r rs).map (·.id) = rs.map (·.id) := by
  simp only [replaced, List.map_map]
  refine List.map_congr_left fun x _ => ?_
  simp only [Function.comp_apply]
  split
  · next h => exact h.symm
  · rfl

def set (d : Directory) (r : Registry) : Directory where
  registries := replaced r d.registries
  index := d.index
  indexed := ids_replaced r d.registries ▸ d.indexed
  ids_nodup := ids_replaced r d.registries ▸ d.ids_nodup
  all_not_mem := ids_replaced r d.registries ▸ d.all_not_mem

theorem get?_set {d : Directory} {r r₀ : Registry} (h : d.get? r.id = some r₀) (id : String) :
    (d.set r).get? id = if r.id = id then some r else d.get? id := by
  have hset : (d.set r).get? id = (d.get? id).map fun x => if x.id = r.id then r else x := by
    change (d.slot? id).bind ((replaced r d.registries)[·]?) = _
    rw [get?, Option.map_bind]
    exact congrArg (Option.bind (d.slot? id)) (funext fun i => List.getElem?_map)
  rw [hset]
  by_cases hid : r.id = id
  · rw [if_pos hid, ← hid, h, Option.map_some, if_pos (id_of_get? h)]
  · rw [if_neg hid]
    cases hx : d.get? id with
    | none => rfl
    | some x => rw [Option.map_some, if_neg (id_of_get? hx ▸ Ne.symm hid)]

theorem ids_freeze (rs : List Registry) : (rs.map Registry.freeze).map (·.id) = rs.map (·.id) := by
  simp [Registry.freeze]

def freezeAll (d : Directory) : Directory where
  registries := d.registries.map Registry.freeze
  index := d.index
  indexed := ids_freeze d.registries ▸ d.indexed
  ids_nodup := ids_freeze d.registries ▸ d.ids_nodup
  all_not_mem := ids_freeze d.registries ▸ d.all_not_mem

def standard : Directory where
  registries :=
    [.standard RegistryId.orders .order, .standard RegistryId.menus .menu, .standard RegistryId.categories .category,
      .standard RegistryId.options .menuOption, .standard RegistryId.optionGroups .optionGroup]
  ids_nodup := by decide
  all_not_mem := by decide

/-! ## The standard registries -/

/-- The registry of an id, if it has the kind and the policy. -/
def typed? (d : Directory) (id : String) (kind : EntityKind) (policy : Policy) : Option Registry :=
  (d.get? id).filter fun r => r.kind = kind && r.policy = policy

theorem typed?_eq_some_iff {d : Directory} {id : String} {kind : EntityKind} {policy : Policy} {r : Registry} :
    d.typed? id kind policy = some r ↔ d.get? id = some r ∧ r.kind = kind ∧ r.policy = policy := by
  simp [typed?, Option.filter_eq_some_iff]

def orders? (d : Directory) : Option Registry := d.typed? RegistryId.orders .order .descendingOrderId

def menus? (d : Directory) : Option Registry := d.typed? RegistryId.menus .menu .replaceById

def categories? (d : Directory) : Option Registry := d.typed? RegistryId.categories .category .replaceById

def summary (d : Directory) : String := Text.quotedList d.ids

end Directory

end OrderDesk
