import Mathlib.Data.List.Sort
import OrderDesk.Proofs.Registry.Changes

/-!
# Registries that file under own ids

A registry owns its ids if every entity in it is filed under its element id.
A registry with the descending policy always does. The snapshot of such a
registry says everything about it: `exists_replaceEntities` loads it into
another registry of the same kind and policy, and `snapshot_eq_of_filter_eq`
tells two registries of orders apart by what they list under an id.
-/

namespace OrderDesk

/-! ## Lists of own pairs -/

namespace Entries

variable {kind : EntityKind} {l : List (String × Element kind)}

def Own (l : List (String × Element kind)) : Prop := ∀ p ∈ l, p.1 = p.2.id

theorem own_nil : Own ([] : List (String × Element kind)) := nofun

theorem Own.remove (h : Own l) (id : String) : Own (Entries.remove id l) := fun p hp => h p (mem_remove.1 hp).1

theorem Own.file (h : Own l) (e : Element kind) : Own (Entries.file e.id e l) := by
  intro p hp
  rcases mem_file.1 hp with rfl | ⟨hp, _⟩
  · rfl
  · exact h p hp

theorem Own.file_eq_put (h : Own l) (e : Element kind) : Entries.file e.id e l = put e.id e l := by
  rw [Entries.file, release, List.filter_eq_self.2]
  intro p hp
  refine decide_eq_true ?_
  rintro ⟨he, hid⟩
  exact hid (he ▸ h p hp)

theorem fileUnder_own (policy : Policy) (e : Element kind) : policy.fileUnder e.id e = e.id := by
  cases policy <;> rfl

theorem Own.listingFile (h : Own l) (policy : Policy) (e : Element kind) :
    Own (Registry.Listing.file policy l e.id e) := by
  rw [Registry.Listing.file, fileUnder_own]
  exact h.file e

theorem Own.listingFileAll (h : Own l) (policy : Policy) (es : List (Element kind)) :
    Own (Registry.Listing.fileAll policy l es) := by
  induction es generalizing l with
  | nil => exact h
  | cons e es ih => exact ih (h.listingFile policy e)

theorem Own.listingFileAll_eq_append (h : Own l) (policy : Policy) (es : List (Element kind))
    (hn : (ids l ++ es.map (·.id)).Nodup) :
    Registry.Listing.fileAll policy l es = l ++ es.map fun e => (e.id, e) := by
  induction es generalizing l with
  | nil => exact (List.append_nil l).symm
  | cons e es ih =>
    have hnew : e.id ∉ ids l := by
      intro hid
      exact (List.nodup_append.1 hn).2.2 _ hid _ List.mem_cons_self rfl
    have hfile : Registry.Listing.file policy l e.id e = l ++ [(e.id, e)] := by
      rw [Registry.Listing.file, fileUnder_own, h.file_eq_put, put, if_neg hnew]
    have hids : ids (l ++ [(e.id, e)]) = ids l ++ [e.id] := List.map_append
    have hstep := h.listingFile policy e
    rw [hfile] at hstep
    rw [Registry.Listing.fileAll, List.foldl_cons, hfile]
    refine (ih hstep ?_).trans (List.append_cons l _ _).symm
    rwa [hids, List.append_assoc]

theorem Own.values_nodup_ids (h : Own l) (hd : Distinct l) : ((values l).map (·.id)).Nodup := by
  have hids : (values l).map (·.id) = ids l := by
    rw [values, List.map_map]
    exact List.map_congr_left fun p hp => (h p hp).symm
  rw [hids]
  exact hd.ids

end Entries

/-! ## The order of a snapshot -/

namespace Policy

variable {kind : EntityKind}

theorem insertDescending_eq_orderedInsert (e : Element kind) (es : List (Element kind)) :
    insertDescending e es = es.orderedInsert (fun a b => number b ≤ number a) e := by
  induction es with
  | nil => rfl
  | cons x xs ih =>
    rw [insertDescending, List.orderedInsert_cons, ih]
    by_cases h : number e < number x
    · rw [if_pos h, if_neg (Int64.not_le.2 h)]
    · rw [if_neg h, if_pos (Int64.not_lt.1 h)]

theorem arrange_descending (es : List (Element kind)) :
    arrange descendingOrderId es = es.insertionSort fun a b => number b ≤ number a := by
  have hinsert : @insertDescending kind = List.orderedInsert fun a b => number b ≤ number a :=
    funext fun e => funext fun es => insertDescending_eq_orderedInsert e es
  rw [arrange, hinsert]
  rfl

theorem arrange_perm (policy : Policy) (es : List (Element kind)) : (policy.arrange es).Perm es := by
  cases policy with
  | replaceById => exact .refl _
  | descendingOrderId =>
    rw [arrange_descending]
    exact List.perm_insertionSort _ es

theorem arrange_pairwise (es : List (Element kind)) :
    (arrange descendingOrderId es).Pairwise fun a b => number b ≤ number a := by
  have htotal : Std.Total fun a b : Element kind => number b ≤ number a := ⟨fun a b => Int64.le_total _ _⟩
  have htrans : IsTrans (Element kind) fun a b => number b ≤ number a := ⟨fun _ _ _ hab hbc => Int64.le_trans hbc hab⟩
  rw [arrange_descending]
  exact List.pairwise_insertionSort _ es

theorem arrange_arrange (policy : Policy) (es : List (Element kind)) :
    policy.arrange (policy.arrange es) = policy.arrange es := by
  cases policy with
  | replaceById => rfl
  | descendingOrderId =>
    rw [arrange_descending (arrange _ es)]
    exact (arrange_pairwise es).insertionSort_eq

end Policy

/-! ## Registries -/

namespace Registry

def Own (r : Registry) : Prop := Entries.Own r.store.toList

/-- What a registry lists under an id. -/
def listed (id : String) (es : List Entity) : List Entity := es.filter (·.elementId = id)

theorem all_perm (r : Registry) : r.all.Perm (Entries.values r.store.toList) := by
  rw [all, Store.values_eq]
  exact Policy.arrange_perm _ _

theorem mem_all {r : Registry} {e : Element r.kind} : e ∈ r.all ↔ ∃ id, (id, e) ∈ r.store.toList := by
  rw [r.all_perm.mem_iff, Entries.values, List.mem_map]
  constructor
  · rintro ⟨p, hp, rfl⟩
    exact ⟨p.1, hp⟩
  · rintro ⟨id, h⟩
    exact ⟨(id, e), h, rfl⟩

theorem snapshot_eq (r : Registry) :
    r.snapshot = (r.policy.arrange (Entries.values r.store.toList)).map (·.entity) := by
  rw [snapshot, all, Store.values_eq]

theorem mem_snapshot {r : Registry} {x : Entity} : x ∈ r.snapshot ↔ ∃ p ∈ r.store.toList, p.2.entity = x := by
  rw [snapshot, List.mem_map]
  constructor
  · rintro ⟨e, he, rfl⟩
    obtain ⟨id, hid⟩ := mem_all.1 he
    exact ⟨(id, e), hid, rfl⟩
  · rintro ⟨p, hp, rfl⟩
    exact ⟨p.2, mem_all.2 ⟨p.1, hp⟩, rfl⟩

theorem mem_snapshot_upsert {r : Registry} {e : Element r.kind} {x : Entity} :
    x ∈ (r.upsert e).snapshot ↔ ∃ p ∈ Entries.file e.id e r.store.toList, p.2.entity = x := by
  have hlist : (file r.policy r.store e.id e).toList = Entries.file e.id e r.store.toList := by
    rw [toList_file, Listing.file, Entries.fileUnder_own]
  rw [← hlist]
  exact mem_snapshot

theorem eq_or_mem_of_mem_upsert {r : Registry} {e : Element r.kind} {x : Entity} (h : x ∈ (r.upsert e).snapshot) :
    x = e.entity ∨ x ∈ r.snapshot := by
  obtain ⟨p, hp, rfl⟩ := mem_snapshot_upsert.1 h
  rcases Entries.mem_file.1 hp with rfl | ⟨hp, -⟩
  · exact .inl rfl
  · exact .inr (mem_snapshot.2 ⟨p, hp, rfl⟩)

theorem filter_id_eq_singleton {kind : EntityKind} {es : List (Element kind)} (hn : (es.map (·.id)).Nodup)
    {e : Element kind} (he : e ∈ es) : es.filter (·.id = e.id) = [e] := by
  have hid : ∀ x ∈ es, decide (x.id = e.id) = decide (x = e) := fun x hx =>
    decide_eq_decide.2 ⟨fun heq => Entries.eq_of_nodup_map hn hx he heq, fun heq => heq ▸ rfl⟩
  rw [List.filter_congr hid, List.filter_eq, List.count_eq_one_of_mem (hn.of_map _) he]
  rfl

namespace Own

variable {r : Registry}

theorem get?_eq_some_iff (h : r.Own) {id : String} {e : Element r.kind} :
    r.get? id = some e ↔ e ∈ r.all ∧ e.id = id := by
  rw [Registry.get?, Store.get?_eq_some_iff, mem_all]
  constructor
  · intro hp
    exact ⟨⟨id, hp⟩, (h _ hp).symm⟩
  · rintro ⟨⟨id', hp⟩, rfl⟩
    obtain rfl : id' = e.id := h _ hp
    exact hp

theorem nodup_ids (h : r.Own) : (r.all.map (·.id)).Nodup :=
  (r.all_perm.map _).nodup_iff.2 (Entries.Own.values_nodup_ids h r.store.distinct)

theorem listed_snapshot (h : r.Own) (id : String) :
    listed id r.snapshot = ((r.get? id).map (·.entity)).toList := by
  have hfilter : r.all.filter (·.id = id) = (r.get? id).toList := by
    cases hid : r.get? id with
    | none =>
      refine List.filter_eq_nil_iff.2 fun e he => ?_
      rw [decide_eq_true_eq]
      intro heid
      cases hid.symm.trans (h.get?_eq_some_iff.2 ⟨he, heid⟩)
    | some e =>
      obtain ⟨he, rfl⟩ := h.get?_eq_some_iff.1 hid
      exact filter_id_eq_singleton h.nodup_ids he
  rw [listed, snapshot, List.filter_map]
  exact (congrArg (List.map _) hfilter).trans (by cases r.get? id <;> rfl)

theorem get?_file (h : r.Own) (e : Element r.kind) (id : String) :
    (file r.policy r.store e.id e).get? id = if e.id = id then some e else r.get? id := by
  ext x
  rw [Store.get?_eq_some_iff, toList_file, Listing.file, Entries.fileUnder_own, Entries.Own.file_eq_put h,
    Entries.mem_put]
  split
  · next hid => simp [hid, eq_comm]
  · next hid =>
    rw [Registry.get?, Store.get?_eq_some_iff]
    constructor
    · rintro (hx | ⟨hx, -⟩)
      · exact absurd (congrArg (·.1) hx).symm hid
      · exact hx
    · intro hx
      exact .inr ⟨hx, Ne.symm hid⟩

theorem upsert (h : r.Own) (e : Element r.kind) : (r.upsert e).Own := by
  have := Entries.Own.listingFile h r.policy e
  rwa [← toList_file] at this

theorem mem_upsert_iff (h : r.Own) (e : Element r.kind) (x : Entity) :
    x ∈ (r.upsert e).snapshot ↔ x = e.entity ∨ x ∈ r.snapshot ∧ x.elementId ≠ e.id := by
  rw [mem_snapshot_upsert, Entries.Own.file_eq_put h, mem_snapshot]
  constructor
  · rintro ⟨p, hp, rfl⟩
    rcases Entries.mem_put.1 hp with rfl | ⟨hp, hid⟩
    · exact .inl rfl
    · exact .inr ⟨⟨p, hp, rfl⟩, fun heq => hid ((h p hp).trans heq)⟩
  · rintro (rfl | ⟨⟨p, hp, rfl⟩, hid⟩)
    · exact ⟨_, Entries.mem_put.2 (.inl rfl), rfl⟩
    · exact ⟨p, Entries.mem_put.2 (.inr ⟨hp, fun heq => hid ((h p hp).symm.trans heq)⟩), rfl⟩

theorem listed_upsert (h : r.Own) (e : Element r.kind) (id : String) :
    listed id (r.upsert e).snapshot = if e.id = id then [e.entity] else listed id r.snapshot := by
  rw [(h.upsert e).listed_snapshot, h.listed_snapshot]
  have := h.get?_file e id
  split
  · next hid =>
    rw [if_pos hid] at this
    rw [show (r.upsert e).get? id = some e from this]
    rfl
  · next hid =>
    rw [if_neg hid] at this
    rw [show (r.upsert e).get? id = r.get? id from this]
    rfl

end Own

theorem own_standard (id : String) (kind : EntityKind) : (standard id kind).Own := by
  unfold standard
  split <;> exact Entries.own_nil

theorem own_replaceAll (r : Registry) (es : List (Element r.kind)) : (r.replaceAll es).Own := by
  have := Entries.own_nil.listingFileAll r.policy es
  rwa [← Store.toList_empty, ← toList_fileAll] at this

theorem snapshot_replaceAll (r : Registry) {es : List (Element r.kind)} (hn : (es.map (·.id)).Nodup)
    (ha : r.policy.arrange es = es) : (r.replaceAll es).snapshot = es.map (·.entity) := by
  have hlist : (fileAll r.policy .empty es).toList = es.map fun e => (e.id, e) := by
    rw [toList_fileAll, Store.toList_empty, Entries.own_nil.listingFileAll_eq_append _ _ hn, List.nil_append]
  have hall : (r.replaceAll es).all = es := by
    refine Eq.trans ?_ ha
    refine congrArg r.policy.arrange ?_
    rw [Store.values_eq]
    refine (congrArg Entries.values hlist).trans ?_
    rw [Entries.values, List.map_map]
    exact List.map_id _
  rw [snapshot, hall]
  rfl

theorem elements_map (r : Registry) (es : List (Element r.kind)) : r.elements (es.map (·.entity)) = .ok es := by
  induction es with
  | nil => rfl
  | cons e es ih =>
    have he : r.element e.entity = .ok e := by
      rw [element, Element.ofEntity?_entity]
    rw [elements, List.map_cons, List.mapM_cons, he]
    rw [elements] at ih
    rw [ih]
    rfl

/-- Loading the snapshot of a registry gives a registry with that snapshot. -/
theorem exists_replaceEntities {r r' : Registry} (h : r.Own) (hk : r'.kind = r.kind) (hp : r'.policy = r.policy) :
    ∃ es : List (Element r'.kind), r'.replaceEntities r.snapshot = .ok (r'.replaceAll es) ∧
      (r'.replaceAll es).snapshot = r.snapshot := by
  have hes : ∃ es : List (Element r'.kind), es.map (·.entity) = r.snapshot ∧ (es.map (·.id)).Nodup ∧
      r'.policy.arrange es = es := by
    obtain ⟨id', kind', policy', frozen', store', hd'⟩ := r'
    obtain rfl : kind' = r.kind := hk
    obtain rfl : policy' = r.policy := hp
    exact ⟨r.all, rfl, h.nodup_ids, Policy.arrange_arrange _ _⟩
  obtain ⟨es, hsnapshot, hn, ha⟩ := hes
  refine ⟨es, ?_, (r'.snapshot_replaceAll hn ha).trans hsnapshot⟩
  rw [replaceEntities, ← hsnapshot, elements_map]
  rfl

theorem elementId_eq_of_number_eq {a b : Entity} (ha : a.kind = .order) (hb : b.kind = .order)
    (h : a.number = b.number) : a.elementId = b.elementId := by
  cases a <;> cases ha
  cases b <;> cases hb
  exact Order.elementId_inj.2 h

theorem kind_of_mem_snapshot {r : Registry} {x : Entity} (h : x ∈ r.snapshot) : x.kind = r.kind := by
  obtain ⟨e, -, rfl⟩ := List.mem_map.1 h
  exact e.property

theorem Own.nodup_snapshot {r : Registry} (h : r.Own) : (r.snapshot.map (·.elementId)).Nodup := by
  have := h.nodup_ids
  rwa [snapshot, List.map_map]

theorem pairwise_snapshot {r : Registry} (hp : r.policy = .descendingOrderId) :
    r.snapshot.Pairwise fun a b => b.number ≤ a.number := by
  rw [snapshot, all, hp, List.pairwise_map]
  exact Policy.arrange_pairwise _

theorem snapshot_eq_of_listed_eq {r r' : Registry} (h : r.Own) (h' : r'.Own) (hp : r.policy = .descendingOrderId)
    (hp' : r'.policy = .descendingOrderId) (heq : ∀ id, listed id r.snapshot = listed id r'.snapshot) :
    r.snapshot = r'.snapshot := by
  have hmem : ∀ x, x ∈ r.snapshot ↔ x ∈ r'.snapshot := by
    intro x
    have := congrArg (x ∈ ·) (heq x.elementId)
    simpa [listed] using this
  have hperm : r.snapshot.Perm r'.snapshot :=
    (List.perm_ext_iff_of_nodup (h.nodup_snapshot.of_map _) (h'.nodup_snapshot.of_map _)).2 hmem
  refine hperm.eq_of_pairwise ?_ (pairwise_snapshot hp) (pairwise_snapshot hp')
  -- no two orders of a registry have the same number
  intro x y hx hy hyx hxy
  have hid := elementId_eq_of_number_eq ((kind_of_mem_snapshot hx).trans (r.kind_of_descending hp))
    ((kind_of_mem_snapshot hy).trans (r'.kind_of_descending hp')) (Int64.le_antisymm hxy hyx)
  exact Entries.eq_of_nodup_map h.nodup_snapshot hx ((hmem y).2 hy) hid

/-! ## The descending policy -/

namespace Listing

variable {kind : EntityKind}

theorem own_step_descending {l : List (String × Element kind)} (h : Entries.Own l) (st : Step kind) :
    Entries.Own (step .descendingOrderId l st) := by
  cases st with
  | add id e => exact h.file e
  | addAll es => exact h.listingFileAll .descendingOrderId es
  | remove id => exact h.remove id
  | clear => exact Entries.own_nil

theorem own_steps_descending {l : List (String × Element kind)} (h : Entries.Own l) (steps : List (Step kind)) :
    Entries.Own (steps.foldl (step .descendingOrderId) l) := by
  induction steps generalizing l with
  | nil => exact h
  | cons st steps ih => exact ih (own_step_descending h st)

theorem own_after_descending {s : Listing kind} (h : Entries.Own s.entries) (c : Change kind) :
    Entries.Own (s.after .descendingOrderId c).entries := by
  cases c with
  | direct st =>
    rw [after]
    split
    · exact h
    · exact own_step_descending h st
  | freeze => exact h
  | unfreeze => exact h
  | upsert e => exact h.file e
  | replaceAll es => exact Entries.own_nil.listingFileAll .descendingOrderId es
  | transaction steps => exact own_steps_descending h steps

theorem own_run_descending {s : Listing kind} (h : Entries.Own s.entries) (cs : List (Change kind)) :
    Entries.Own (cs.foldl (after .descendingOrderId) s).entries := by
  induction cs generalizing s with
  | nil => exact h
  | cons c cs ih => exact ih (own_after_descending h c)

end Listing

theorem Of.own_iff {kind : EntityKind} (r : Of kind) : r.val.Own ↔ Entries.Own r.listing.entries := by
  obtain ⟨r, rfl⟩ := r
  exact Iff.rfl

/-- A descending registry owns its ids, whatever is proposed to it. -/
theorem Of.own_run {kind : EntityKind} (id : String) (h : .descendingOrderId = Policy.descendingOrderId → kind = .order)
    (cs : List (Change kind)) : ((Of.empty id .descendingOrderId h).run cs).val.Own := by
  rw [own_iff, listing_run]
  exact Listing.own_run_descending Entries.own_nil cs

end Registry

end OrderDesk
