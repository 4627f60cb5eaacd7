/-!
# Lists of filed values

What a store holds is a list of pairs of an id and a value, in which no id and
no value occurs twice. Filing and removing are two short functions on such
lists.
-/

namespace OrderDesk.Entries

variable {α : Type}

def ids (l : List (String × α)) : List String := l.map (·.1)

def values (l : List (String × α)) : List α := l.map (·.2)

structure Distinct (l : List (String × α)) : Prop where
  ids : (ids l).Nodup
  values : (values l).Nodup

def remove (id : String) (l : List (String × α)) : List (String × α) := l.filter (·.1 ≠ id)

/-- Puts a value behind an id: in the place of the pair of that id, else at the
end. -/
def put (id : String) (a : α) (l : List (String × α)) : List (String × α) :=
  if id ∈ ids l then l.map fun p => if p.1 = id then (id, a) else p else l ++ [(id, a)]

section
variable [DecidableEq α]

/-- Drops the pair that holds a value under another id than the given one. -/
def release (id : String) (a : α) (l : List (String × α)) : List (String × α) :=
  l.filter fun p => ¬(p.2 = a ∧ p.1 ≠ id)

def file (id : String) (a : α) (l : List (String × α)) : List (String × α) := put id a (release id a l)

end

/-! ## What is in the list -/

theorem mem_ids {l : List (String × α)} {id : String} : id ∈ ids l ↔ ∃ a, (id, a) ∈ l := by
  simp [ids]

theorem mem_ids_of_mem {l : List (String × α)} {p : String × α} (h : p ∈ l) : p.1 ∈ ids l :=
  List.mem_map_of_mem h

theorem ids_eraseIdx (l : List (String × α)) (i : Nat) : ids (l.eraseIdx i) = (ids l).eraseIdx i := by
  induction l generalizing i with
  | nil => rfl
  | cons p l ih =>
    cases i with
    | zero => rfl
    | succ i => exact congrArg (p.1 :: ·) (ih i)

theorem mem_remove {l : List (String × α)} {id : String} {p : String × α} : p ∈ remove id l ↔ p ∈ l ∧ p.1 ≠ id := by
  simp [remove]

theorem remove_of_not_mem {l : List (String × α)} {id : String} (h : id ∉ ids l) : remove id l = l := by
  refine List.filter_eq_self.2 fun p hp => decide_eq_true ?_
  rintro rfl
  exact h (mem_ids_of_mem hp)

theorem ids_put_of_mem {l : List (String × α)} {id : String} (a : α) (h : id ∈ ids l) : ids (put id a l) = ids l := by
  rw [put, if_pos h]
  simp only [ids, List.map_map]
  refine List.map_congr_left fun p _ => ?_
  simp only [Function.comp_apply]
  split
  · next hp => exact hp.symm
  · rfl

theorem mem_put {l : List (String × α)} {id : String} {a : α} {p : String × α} :
    p ∈ put id a l ↔ p = (id, a) ∨ p ∈ l ∧ p.1 ≠ id := by
  unfold put
  split
  · next h =>
    simp only [List.mem_map]
    constructor
    · rintro ⟨q, hq, rfl⟩
      by_cases hid : q.1 = id
      · exact .inl (if_pos hid)
      · rw [if_neg hid]
        exact .inr ⟨hq, hid⟩
    · rintro (rfl | ⟨hp, hid⟩)
      · obtain ⟨b, hb⟩ := mem_ids.1 h
        exact ⟨(id, b), hb, if_pos rfl⟩
      · exact ⟨p, hp, if_neg hid⟩
  · next h =>
    simp only [List.mem_append, List.mem_singleton]
    constructor
    · rintro (hp | rfl)
      · refine .inr ⟨hp, ?_⟩
        rintro rfl
        exact h (mem_ids_of_mem hp)
      · exact .inl rfl
    · rintro (rfl | ⟨hp, _⟩)
      · exact .inr rfl
      · exact .inl hp

section
variable [DecidableEq α]

theorem mem_release {l : List (String × α)} {id : String} {a : α} {p : String × α} :
    p ∈ release id a l ↔ p ∈ l ∧ (p.2 = a → p.1 = id) := by
  simp only [release, List.mem_filter, decide_eq_true_eq, ne_eq, not_and, Decidable.not_not]

theorem mem_file {l : List (String × α)} {id : String} {a : α} {p : String × α} :
    p ∈ file id a l ↔ p = (id, a) ∨ p ∈ l ∧ p.1 ≠ id ∧ p.2 ≠ a := by
  rw [file, mem_put, mem_release]
  constructor
  · rintro (h | ⟨⟨h, ha⟩, hid⟩)
    · exact .inl h
    · exact .inr ⟨h, hid, fun e => hid (ha e)⟩
  · rintro (h | ⟨h, hid, ha⟩)
    · exact .inl h
    · exact .inr ⟨⟨h, fun e => absurd e ha⟩, hid⟩

end

/-! ## Distinct pairs -/

theorem distinct_nil : Distinct ([] : List (String × α)) := ⟨.nil, .nil⟩

theorem eq_of_nodup_map {β γ : Type} {f : β → γ} {l : List β} (h : (l.map f).Nodup) {p q : β} (hp : p ∈ l)
    (hq : q ∈ l) (e : f p = f q) : p = q := by
  obtain ⟨i, hi⟩ := List.mem_iff_getElem?.1 hp
  obtain ⟨j, hj⟩ := List.mem_iff_getElem?.1 hq
  have hlt : i < (l.map f).length := by
    rw [List.length_map]
    exact (List.getElem?_eq_some_iff.1 hi).1
  have hij : i = j := (List.getElem?_inj hlt h).1 (by simp [hi, hj, e])
  subst hij
  exact Option.some.inj (hi.symm.trans hj)

namespace Distinct

variable {l : List (String × α)}

theorem sublist {l' : List (String × α)} (h : Distinct l) (hs : l'.Sublist l) : Distinct l' :=
  ⟨h.ids.sublist (hs.map _), h.values.sublist (hs.map _)⟩

theorem eq_of_id (h : Distinct l) {p q : String × α} (hp : p ∈ l) (hq : q ∈ l) (e : p.1 = q.1) : p = q :=
  eq_of_nodup_map h.ids hp hq e

theorem eq_of_value (h : Distinct l) {p q : String × α} (hp : p ∈ l) (hq : q ∈ l) (e : p.2 = q.2) : p = q :=
  eq_of_nodup_map h.values hp hq e

theorem remove (h : Distinct l) (id : String) : Distinct (Entries.remove id l) := h.sublist List.filter_sublist

theorem remove_eq_eraseIdx (h : Distinct l) {id : String} {i : Nat} (hi : (Entries.ids l)[i]? = some id) :
    Entries.remove id l = l.eraseIdx i := by
  induction l generalizing i with
  | nil => rfl
  | cons p l ih =>
    have hl : Distinct l := h.sublist (List.sublist_cons_self p l)
    cases i with
    | zero =>
      have hp : p.1 = id := by simpa [Entries.ids] using hi
      have hid : id ∉ Entries.ids l := hp ▸ (List.nodup_cons.1 h.ids).1
      rw [List.eraseIdx_cons_zero, ← remove_of_not_mem hid]
      simp [Entries.remove, hp]
    | succ i =>
      have hi' : (Entries.ids l)[i]? = some id := by simpa [Entries.ids] using hi
      have hp : p.1 ≠ id := by
        rintro rfl
        exact (List.nodup_cons.1 h.ids).1 (List.mem_of_getElem? hi')
      rw [List.eraseIdx_cons_succ, ← ih hl hi']
      simp [Entries.remove, hp]

theorem put (h : Distinct l) {id : String} {a : α} (ha : ∀ p ∈ l, p.2 = a → p.1 = id) : Distinct (Entries.put id a l) := by
  by_cases hid : id ∈ Entries.ids l
  · refine ⟨ids_put_of_mem a hid ▸ h.ids, ?_⟩
    rw [Entries.put, if_pos hid, Entries.values, List.map_map]
    have hpairs := (List.pairwise_map.1 h.ids).and (List.pairwise_map.1 h.values)
    refine List.pairwise_map.2 (hpairs.imp_of_mem ?_)
    rintro p q hp hq ⟨hids, hvalues⟩
    simp only [Function.comp_apply]
    split
    · next hpid =>
      rw [if_neg fun hqid => hids (hpid.trans hqid.symm)]
      exact fun e => hids (hpid.trans (ha q hq e.symm).symm)
    · next hpid =>
      split
      · exact fun e => hpid (ha p hp e)
      · exact hvalues
  · rw [Entries.put, if_neg hid]
    refine ⟨?_, ?_⟩
    · rw [Entries.ids, List.map_append, List.nodup_append]
      refine ⟨h.ids, by simp, ?_⟩
      rintro _ hx _ hy rfl
      rw [List.map_singleton, List.mem_singleton] at hy
      subst hy
      exact hid hx
    · rw [Entries.values, List.map_append, List.nodup_append]
      refine ⟨h.values, by simp, ?_⟩
      rintro _ hx _ hy rfl
      obtain ⟨p, hp, rfl⟩ := List.mem_map.1 hx
      rw [List.map_singleton, List.mem_singleton] at hy
      exact hid (ha p hp hy ▸ mem_ids_of_mem hp)

section
variable [DecidableEq α]

theorem release (h : Distinct l) (id : String) (a : α) : Distinct (Entries.release id a l) :=
  h.sublist List.filter_sublist

theorem file (h : Distinct l) (id : String) (a : α) : Distinct (Entries.file id a l) :=
  (h.release id a).put fun _ hp e => (mem_release.1 hp).2 e

theorem release_of_mem (h : Distinct l) {old id : String} {a : α} (ha : (old, a) ∈ l) (hne : old ≠ id) :
    Entries.release id a l = Entries.remove old l := by
  refine List.filter_congr fun p hp => ?_
  have hiff : p.2 = a ∧ p.1 ≠ id ↔ p.1 = old := by
    constructor
    · rintro ⟨e, _⟩
      exact congrArg (·.1) (h.eq_of_value hp ha e)
    · intro e
      obtain rfl := h.eq_of_id hp ha e
      exact ⟨rfl, hne⟩
  simp only [hiff, ne_eq, decide_not]

end

end Distinct

end OrderDesk.Entries
