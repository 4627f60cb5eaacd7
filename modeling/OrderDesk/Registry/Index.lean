import OrderDesk.Registry.Entries
import Std.Data.HashMap

/-!
# Indices

The four records of a store: the ids in the order of their slots, the slot of
every id, the value of every id and the id of every value. Filing and removing
change all four. `Represents` says which list of pairs the records agree on.
-/

namespace OrderDesk

structure Index (α : Type) [BEq α] [Hashable α] where
  /-- The ids, oldest first; the place of an id is its slot. -/
  slots : Array String
  raw : Std.HashMap String Nat
  byId : Std.HashMap String α
  byValue : Std.HashMap α String

namespace Index

variable {α : Type} [DecidableEq α] [Hashable α]

def empty : Index α := ⟨#[], ∅, ∅, ∅⟩

def renumbered (slots : Array String) (i : Nat) (raw : Std.HashMap String Nat) : Std.HashMap String Nat :=
  raw.insertMany (slots.toList.zipIdx.drop i)

/-- The id of a value, unless the value is filed under another id by now. -/
def forget (x : Index α) (id : String) (a : α) : Index α :=
  if x.byValue[a]? = some id then { x with byValue := x.byValue.erase a } else x

def closeGap (x : Index α) (id : String) : Index α :=
  match x.raw[id]? with
  | none => x
  | some i =>
    let slots := x.slots.eraseIdxIfInBounds i
    { x with slots, raw := renumbered slots i (x.raw.erase id) }

def erase (x : Index α) (id : String) : Index α :=
  match x.byId[id]? with
  | none => x
  | some a => ({ x with byId := x.byId.erase id }.forget id a).closeGap id

/-- Files a value under an id, in the slot of the id if it has one, else in a
new slot. -/
def put (x : Index α) (id : String) (a : α) : Index α :=
  let y := { x with byId := x.byId.insert id a }
  let z :=
    match x.byId[id]? with
    | some prior => y.forget id prior
    | none => { y with raw := y.raw.insert id y.slots.size, slots := y.slots.push id }
  { z with byValue := z.byValue.insert a id }

def release (x : Index α) (id : String) (a : α) : Index α :=
  match x.byValue[a]? with
  | some old => if old = id then x else x.erase old
  | none => x

def insert (x : Index α) (id : String) (a : α) : Index α := (x.release id a).put id a

def snapshot (x : Index α) : List α := x.slots.toList.filterMap fun id => x.byId[id]?

def entries (x : Index α) : List (String × α) := x.slots.toList.filterMap fun id => (x.byId[id]?).map (id, ·)

/-- The four records agree on a list of pairs. -/
structure Represents (x : Index α) (l : List (String × α)) : Prop where
  distinct : Entries.Distinct l
  slots : x.slots.toList = Entries.ids l
  raw : ∀ (id : String) (i : Nat), x.raw[id]? = some i ↔ (Entries.ids l)[i]? = some id
  byId : ∀ (id : String) (a : α), x.byId[id]? = some a ↔ (id, a) ∈ l
  byValue : ∀ (a : α) (id : String), x.byValue[a]? = some id ↔ (id, a) ∈ l
  size : x.byId.size = l.length

theorem represents_empty : (empty : Index α).Represents [] where
  distinct := Entries.distinct_nil
  slots := rfl
  raw := by simp [empty, Entries.ids]
  byId := by simp [empty]
  byValue := by simp [empty]
  size := rfl

/-! ## Removing -/

theorem pairwise_zipIdx_drop {ids : List String} (h : ids.Nodup) (i : Nat) :
    (ids.zipIdx.drop i).Pairwise fun p q => (p.1 == q.1) = false := by
  have hz : (ids.zipIdx.map (·.1)).Nodup := by rwa [List.zipIdx_map_fst]
  refine ((List.pairwise_map.1 hz).drop (i := i)).imp ?_
  intro p q hpq
  exact beq_eq_false_iff_ne.2 hpq

theorem mem_zipIdx_drop {ids : List String} {i j : Nat} {id : String} :
    (id, j) ∈ ids.zipIdx.drop i ↔ i ≤ j ∧ ids[j]? = some id := by
  rw [List.mem_iff_getElem?]
  simp only [List.getElem?_drop, List.getElem?_zipIdx, Nat.zero_add, Option.map_eq_some_iff, Prod.mk.injEq]
  constructor
  · rintro ⟨k, _, hk, rfl, rfl⟩
    exact ⟨Nat.le_add_right i k, hk⟩
  · rintro ⟨hij, hj⟩
    exact ⟨j - i, id, by rwa [Nat.add_sub_cancel' hij], rfl, by omega⟩

theorem getElem?_renumbered {slots : Array String} {ids : List String} {raw : Std.HashMap String Nat} (hn : ids.Nodup)
    (hraw : ∀ (id : String) (i : Nat), raw[id]? = some i ↔ ids[i]? = some id) {id : String} {i : Nat}
    (hi : ids[i]? = some id) (hs : slots.toList = ids.eraseIdx i) (id' : String) (j : Nat) :
    (renumbered slots i (raw.erase id))[id']? = some j ↔ (ids.eraseIdx i)[j]? = some id' := by
  have hn' : (ids.eraseIdx i).Nodup := hn.eraseIdx i
  unfold renumbered
  rw [hs]
  by_cases hm : ∃ k, (id', k) ∈ (ids.eraseIdx i).zipIdx.drop i
  · -- the id had a later slot and was noted anew
    obtain ⟨k, hk⟩ := hm
    rw [Std.HashMap.getElem?_insertMany_list_of_mem (beq_self_eq_true id') (pairwise_zipIdx_drop hn' i) hk]
    have hk' := (mem_zipIdx_drop.1 hk).2
    constructor
    · rintro ⟨⟩
      exact hk'
    · intro hj
      exact congrArg some ((List.getElem?_inj (List.getElem?_eq_some_iff.1 hk').1 hn').1 (hk'.trans hj.symm))
  · have hc : (((ids.eraseIdx i).zipIdx.drop i).map Prod.fst).contains id' = false := by
      rw [← Bool.not_eq_true, List.contains_iff_mem, List.mem_map]
      rintro ⟨⟨_, k⟩, hk, rfl⟩
      exact hm ⟨k, hk⟩
    rw [Std.HashMap.getElem?_insertMany_list_of_contains_eq_false hc, Std.HashMap.getElem?_erase]
    have hlt : ∀ {j : Nat}, (ids.eraseIdx i)[j]? = some id' → j < i := by
      intro j hj
      rcases Nat.lt_or_ge j i with h | h
      · exact h
      · exact absurd ⟨j, mem_zipIdx_drop.2 ⟨h, hj⟩⟩ hm
    constructor
    · intro hj
      split at hj
      · cases hj
      · next hne =>
        rw [hraw] at hj
        rcases Nat.lt_trichotomy j i with h | rfl | h
        · rwa [List.getElem?_eraseIdx_of_lt h]
        · exact absurd (beq_iff_eq.2 (Option.some.inj (hi.symm.trans hj))) hne
        · have := @hlt (j - 1) (by rwa [List.getElem?_eraseIdx_of_ge (by omega), Nat.sub_add_cancel (by omega)])
          omega
    · intro hj
      have hji := hlt hj
      rw [List.getElem?_eraseIdx_of_lt hji] at hj
      rw [if_neg, (hraw id' j).2 hj]
      intro he
      rw [← beq_iff_eq.1 he] at hj
      have := (List.getElem?_inj (List.getElem?_eq_some_iff.1 hi).1 hn).1 (hi.trans hj.symm)
      omega

namespace Represents

variable {x : Index α} {l : List (String × α)}

theorem not_mem_ids (h : x.Represents l) {id : String} (hn : x.byId[id]? = none) : id ∉ Entries.ids l := by
  intro hid
  obtain ⟨a, ha⟩ := Entries.mem_ids.1 hid
  rw [(h.byId id a).2 ha] at hn
  cases hn

theorem exists_raw (h : x.Represents l) {id : String} {a : α} (ha : (id, a) ∈ l) : ∃ i, x.raw[id]? = some i := by
  obtain ⟨i, hi⟩ := List.mem_iff_getElem?.1 (Entries.mem_ids_of_mem ha)
  exact ⟨i, (h.raw id i).2 hi⟩

theorem erase (h : x.Represents l) (id : String) : (x.erase id).Represents (Entries.remove id l) := by
  unfold Index.erase
  split
  · next hn =>
    rw [Entries.remove_of_not_mem (h.not_mem_ids hn)]
    exact h
  · next a ha =>
    have hmem := (h.byId id a).1 ha
    obtain ⟨i, hi⟩ := h.exists_raw hmem
    have hi' := (h.raw id i).1 hi
    have hrem := h.distinct.remove_eq_eraseIdx hi'
    have hids : Entries.ids (Entries.remove id l) = (Entries.ids l).eraseIdx i := by rw [hrem, Entries.ids_eraseIdx]
    have hslots : (x.slots.eraseIdxIfInBounds i).toList = (Entries.ids l).eraseIdx i := by
      rw [Array.toList_eraseIdxIfInBounds, h.slots]
    simp only [forget, if_pos ((h.byValue a id).2 hmem), closeGap, hi]
    exact {
      distinct := h.distinct.remove id
      slots := by rw [hids, hslots]
      raw := fun id' j => by rw [hids, getElem?_renumbered h.distinct.ids h.raw hi' hslots]
      byId := fun id' b => by
        rw [Entries.mem_remove, Std.HashMap.getElem?_erase, ← h.byId]
        by_cases he : id = id'
        · rw [if_pos (beq_iff_eq.2 he)]
          simp [he]
        · rw [if_neg (mt beq_iff_eq.1 he)]
          exact ⟨fun hb => ⟨hb, fun e => he e.symm⟩, fun hb => hb.1⟩
      byValue := fun b id' => by
        rw [Entries.mem_remove, Std.HashMap.getElem?_erase, ← h.byValue]
        by_cases he : a = b
        · subst he
          rw [if_pos (beq_self_eq_true a), (h.byValue a id).2 hmem]
          simp [eq_comm]
        · rw [if_neg (mt beq_iff_eq.1 he)]
          refine ⟨fun hb => ⟨hb, ?_⟩, fun hb => hb.1⟩
          rintro rfl
          exact he (Prod.mk.inj (h.distinct.eq_of_id hmem ((h.byValue b id').1 hb) rfl)).2
      size := by
        have hlt := (List.getElem?_eq_some_iff.1 hi').1
        rw [Entries.ids, List.length_map] at hlt
        have hid : id ∈ x.byId := Std.HashMap.mem_iff_isSome_getElem?.2 (by rw [ha]; rfl)
        rw [Std.HashMap.size_erase, if_pos hid, h.size, hrem, List.length_eraseIdx_of_lt hlt] }

theorem release (h : x.Represents l) (id : String) (a : α) : (x.release id a).Represents (Entries.release id a l) := by
  unfold Index.release
  split
  · next old ho =>
    have hmem := (h.byValue a old).1 ho
    split
    · next he =>
      subst he
      rw [Entries.release, List.filter_eq_self.2]
      · exact h
      · rintro p hp
        refine decide_eq_true ?_
        rintro ⟨e, hne⟩
        exact hne (congrArg (·.1) (h.distinct.eq_of_value hp hmem e))
    · next he =>
      rw [h.distinct.release_of_mem hmem he]
      exact h.erase old
  · next hn =>
    rw [Entries.release, List.filter_eq_self.2]
    · exact h
    · rintro p hp
      refine decide_eq_true ?_
      rintro ⟨rfl, _⟩
      rw [(h.byValue p.2 p.1).2 hp] at hn
      cases hn

theorem getElem?_byValue_insert {m : Std.HashMap α String} {id : String} {a : α} (ha : ∀ p ∈ l, p.2 = a → p.1 = id)
    (hm : ∀ (b : α) (id' : String), m[b]? = some id' ↔ (id', b) ∈ l ∧ id' ≠ id) (b : α) (id' : String) :
    (m.insert a id)[b]? = some id' ↔ (id', b) ∈ Entries.put id a l := by
  rw [Entries.mem_put, Std.HashMap.getElem?_insert]
  by_cases he : a = b
  · subst he
    rw [if_pos (beq_self_eq_true a)]
    constructor
    · rintro ⟨⟩
      exact .inl rfl
    · rintro (e | ⟨hmem, hne⟩)
      · rw [(Prod.mk.inj e).1]
      · exact absurd (ha _ hmem rfl) hne
  · rw [if_neg (mt beq_iff_eq.1 he), hm]
    constructor
    · exact .inr
    · rintro (e | h)
      · exact absurd (Prod.mk.inj e).2.symm he
      · exact h

theorem put (h : x.Represents l) {id : String} {a : α} (ha : ∀ p ∈ l, p.2 = a → p.1 = id) :
    (x.put id a).Represents (Entries.put id a l) := by
  have hbyId : ∀ (id' : String) (b : α), (x.byId.insert id a)[id']? = some b ↔ (id', b) ∈ Entries.put id a l := by
    intro id' b
    rw [Entries.mem_put, Std.HashMap.getElem?_insert, ← h.byId]
    by_cases he : id = id'
    · subst he
      rw [if_pos (beq_self_eq_true id)]
      simp [eq_comm]
    · rw [if_neg (mt beq_iff_eq.1 he)]
      refine ⟨fun hb => .inr ⟨hb, fun e => he e.symm⟩, ?_⟩
      rintro (e | hb)
      · exact absurd (Prod.mk.inj e).1.symm he
      · exact hb.1
  unfold Index.put
  split
  · next prior hp =>
    have hmem := (h.byId id prior).1 hp
    have hid := Entries.mem_ids_of_mem hmem
    simp only [forget, if_pos ((h.byValue prior id).2 hmem)]
    exact {
      distinct := h.distinct.put ha
      slots := by rw [Entries.ids_put_of_mem a hid, h.slots]
      raw := fun id' i => by rw [Entries.ids_put_of_mem a hid, h.raw]
      byId := hbyId
      byValue := getElem?_byValue_insert ha fun b id' => by
        rw [Std.HashMap.getElem?_erase, ← h.byValue]
        by_cases he : prior = b
        · subst he
          rw [if_pos (beq_self_eq_true prior), (h.byValue prior id).2 hmem]
          simp [eq_comm]
        · rw [if_neg (mt beq_iff_eq.1 he)]
          refine ⟨fun hb => ⟨hb, ?_⟩, fun hb => hb.1⟩
          rintro rfl
          exact he (Prod.mk.inj (h.distinct.eq_of_id hmem ((h.byValue b id').1 hb) rfl)).2
      size := by
        have hmem' : id ∈ x.byId := Std.HashMap.mem_iff_isSome_getElem?.2 (by rw [hp]; rfl)
        rw [Std.HashMap.size_insert, if_pos hmem', h.size, Entries.put, if_pos hid, List.length_map] }
  · next hn =>
    have hid := h.not_mem_ids hn
    have hput : Entries.put id a l = l ++ [(id, a)] := if_neg hid
    have hids : Entries.ids (l ++ [(id, a)]) = Entries.ids l ++ [id] := List.map_append
    have hsize : x.slots.size = (Entries.ids l).length := by rw [← h.slots, Array.length_toList]
    exact {
      distinct := h.distinct.put ha
      slots := by rw [Array.toList_push, h.slots, hput, hids]
      raw := fun id' i => by
        rw [hput, hids, Std.HashMap.getElem?_insert, hsize, List.getElem?_append]
        by_cases he : id = id'
        · subst he
          rw [if_pos (beq_self_eq_true id)]
          constructor
          · rintro ⟨⟩
            simp
          · intro hi
            split at hi
            · exact absurd (List.mem_of_getElem? hi) hid
            · have := (List.getElem?_eq_some_iff.1 hi).1
              rw [List.length_singleton] at this
              exact congrArg some (by omega)
        · rw [if_neg (mt beq_iff_eq.1 he), h.raw]
          split
          · rfl
          · next hge =>
            rw [List.getElem?_eq_none (Nat.le_of_not_lt hge)]
            constructor
            · intro e
              cases e
            · intro hi
              exact absurd (List.mem_singleton.1 (List.mem_of_getElem? hi)).symm he
      byId := hbyId
      byValue := getElem?_byValue_insert ha fun b id' => by
        rw [h.byValue]
        refine ⟨fun hb => ⟨hb, ?_⟩, fun hb => hb.1⟩
        rintro rfl
        exact hid (Entries.mem_ids_of_mem hb)
      size := by
        have hmem' : id ∉ x.byId := by
          rw [Std.HashMap.mem_iff_isSome_getElem?, hn]
          exact Bool.false_ne_true
        rw [Std.HashMap.size_insert, if_neg hmem', h.size, hput, List.length_append, List.length_singleton] }

theorem insert (h : x.Represents l) (id : String) (a : α) : (x.insert id a).Represents (Entries.file id a l) :=
  (h.release id a).put fun _ hp e => (Entries.mem_release.1 hp).2 e

/-! ## Looking up -/

theorem filterMap_eq_map {β γ : Type} {f : β → Option γ} {g : β → γ} {bs : List β} (h : ∀ b ∈ bs, f b = some (g b)) :
    bs.filterMap f = bs.map g := by
  induction bs with
  | nil => rfl
  | cons b bs ih =>
    rw [List.filterMap_cons, h b List.mem_cons_self, List.map_cons, ih fun c hc => h c (List.mem_cons_of_mem b hc)]

theorem entries_eq (h : x.Represents l) : x.entries = l := by
  rw [Index.entries, h.slots, Entries.ids, List.filterMap_map, filterMap_eq_map, List.map_id]
  intro p hp
  rw [Function.comp_apply, (h.byId p.1 p.2).2 hp]
  rfl

theorem snapshot_eq (h : x.Represents l) : x.snapshot = Entries.values l := by
  rw [Index.snapshot, h.slots, Entries.ids, List.filterMap_map, Entries.values]
  exact filterMap_eq_map fun p hp => (h.byId p.1 p.2).2 hp

end Represents

end Index

end OrderDesk
