import OrderDesk.Json.Basic

/-!
# Members in order

Sorting leaves the members of an object strictly ascending by name, and drops
none unless a later one has its name. What is sorted once stays as it is.
-/

namespace OrderDesk.Json

def Ascending (members : List (String × Json)) : Prop := members.Pairwise fun m n => m.1 < n.1

section
variable {name : String} {value : Json} {members acc : List (String × Json)}

theorem mem_insertMember {m : String × Json} (h : m ∈ insertMember name value members) :
    m = (name, value) ∨ m ∈ members := by
  induction members with
  | nil => simpa [insertMember] using h
  | cons m' members ih =>
    unfold insertMember at h
    split at h
    · exact List.mem_cons.1 h
    · split at h
      · exact (List.mem_cons.1 h).imp id (List.mem_cons_of_mem _)
      · rcases List.mem_cons.1 h with rfl | h
        · exact .inr List.mem_cons_self
        · exact (ih h).imp id (List.mem_cons_of_mem _)

theorem Ascending.insertMember (h : Ascending members) (name : String) (value : Json) :
    Ascending (Json.insertMember name value members) := by
  induction members with
  | nil => exact List.pairwise_singleton _ _
  | cons m members ih =>
    obtain ⟨hm, htail⟩ := List.pairwise_cons.1 h
    unfold Json.insertMember
    by_cases hlt : name < m.1
    · rw [if_pos hlt]
      refine List.pairwise_cons.2 ⟨fun n hn => ?_, h⟩
      rcases List.mem_cons.1 hn with rfl | hn
      · exact hlt
      · exact String.lt_trans hlt (hm n hn)
    · rw [if_neg hlt]
      by_cases heq : name = m.1
      · rw [if_pos heq]
        exact List.pairwise_cons.2 ⟨fun n hn => heq ▸ hm n hn, htail⟩
      · rw [if_neg heq]
        refine List.pairwise_cons.2 ⟨fun n hn => ?_, ih htail⟩
        rcases mem_insertMember hn with rfl | hn
        · refine Classical.byContradiction fun hge => heq ?_
          exact String.le_antisymm (String.not_lt.1 hge) (String.not_lt.1 hlt)
        · exact hm n hn

theorem insertMember_perm (h : ∀ m ∈ members, m.1 ≠ name) :
    (insertMember name value members).Perm ((name, value) :: members) := by
  induction members with
  | nil => exact .refl _
  | cons m members ih =>
    unfold insertMember
    split
    · exact .refl _
    · rw [if_neg (h m List.mem_cons_self).symm]
      have htail := ih fun n hn => h n (List.mem_cons_of_mem m hn)
      exact (htail.cons m).trans (.swap ..)

theorem insertMember_of_lt (h : ∀ m ∈ members, m.1 < name) :
    insertMember name value members = members ++ [(name, value)] := by
  induction members with
  | nil => rfl
  | cons m members ih =>
    have hm := h m List.mem_cons_self
    have hne : name ≠ m.1 := fun he => String.lt_irrefl name (he ▸ hm)
    rw [insertMember, if_neg (String.lt_asymm hm), if_neg hne, ih fun n hn => h n (List.mem_cons_of_mem m hn)]
    rfl

theorem mem_foldl_insertMember {m : String × Json}
    (h : m ∈ members.foldl (fun sorted m => insertMember m.1 m.2 sorted) acc) : m ∈ acc ∨ m ∈ members := by
  induction members generalizing acc with
  | nil => exact .inl h
  | cons n members ih =>
    rcases ih h with h | h
    · rcases mem_insertMember h with rfl | h
      · exact .inr List.mem_cons_self
      · exact .inl h
    · exact .inr (List.mem_cons_of_mem n h)

theorem mem_sortMembers {m : String × Json} (h : m ∈ sortMembers members) : m ∈ members :=
  (mem_foldl_insertMember h).resolve_left (nomatch ·)

theorem Ascending.foldl (h : Ascending acc) :
    Ascending (members.foldl (fun sorted m => Json.insertMember m.1 m.2 sorted) acc) := by
  induction members generalizing acc with
  | nil => exact h
  | cons m members ih => exact ih (h.insertMember m.1 m.2)

theorem ascending_sortMembers (members : List (String × Json)) : Ascending (sortMembers members) :=
  .foldl List.Pairwise.nil

theorem foldl_insertMember_of_ascending (h : Ascending (acc ++ members)) :
    members.foldl (fun sorted m => insertMember m.1 m.2 sorted) acc = acc ++ members := by
  induction members generalizing acc with
  | nil => simp
  | cons m members ih =>
    have hlast : insertMember m.1 m.2 acc = acc ++ [m] :=
      insertMember_of_lt fun n hn => (List.pairwise_append.1 h).2.2 n hn m List.mem_cons_self
    rw [List.foldl_cons, hlast, ih (by simpa using h), List.append_assoc]
    rfl

theorem sortMembers_of_ascending (h : Ascending members) : sortMembers members = members :=
  foldl_insertMember_of_ascending h

theorem foldl_insertMember_perm (h : ((acc ++ members).map (·.1)).Nodup) :
    (members.foldl (fun sorted m => insertMember m.1 m.2 sorted) acc).Perm (acc ++ members) := by
  induction members generalizing acc with
  | nil => simp
  | cons m members ih =>
    have hmiddle : (acc ++ m :: members).Perm (m :: (acc ++ members)) := List.perm_middle
    have hnodup : ((m :: (acc ++ members)).map (·.1)).Nodup := (hmiddle.map _).nodup_iff.1 h
    obtain ⟨hnew, -⟩ := List.nodup_cons.1 hnodup
    have hinsert : (insertMember m.1 m.2 acc).Perm (m :: acc) := by
      apply insertMember_perm
      intro n hn he
      exact hnew (List.mem_map.2 ⟨n, List.mem_append_left _ hn, he⟩)
    have hall : (insertMember m.1 m.2 acc ++ members).Perm (m :: (acc ++ members)) := hinsert.append_right members
    exact (ih ((hall.map _).nodup_iff.2 hnodup)).trans (hall.trans hmiddle.symm)

theorem sortMembers_perm (h : (members.map (·.1)).Nodup) : (sortMembers members).Perm members :=
  foldl_insertMember_perm h

end

theorem sortedItems_eq_map (items : List Json) : sortedItems items = items.map sorted := by
  induction items with
  | nil => rfl
  | cons j items ih => simp [sortedItems, ih]

theorem sortedMembers_eq_map (members : List (String × Json)) :
    sortedMembers members = members.map fun m => (m.1, m.2.sorted) := by
  induction members with
  | nil => rfl
  | cons m members ih => simp [sortedMembers, ih]

mutual

theorem sorted_sorted : (j : Json) → j.sorted.sorted = j.sorted
  | .null | .bool _ | .number _ | .string _ => rfl
  | .array items => by
    have hitems := sorted_of_mem_sortedItems items
    simp only [sorted, Json.array.injEq]
    rw [sortedItems_eq_map (sortedItems items), List.map_congr_left hitems, List.map_id']
  | .object members => by
    have hmembers := sorted_of_mem_sortedMembers members
    have hsame : sortedMembers (sortMembers (sortedMembers members)) = sortMembers (sortedMembers members) := by
      rw [sortedMembers_eq_map (sortMembers _)]
      refine (List.map_congr_left fun m hm => ?_).trans (List.map_id' _)
      rw [hmembers m (mem_sortMembers hm)]
    simp only [sorted, hsame, sortMembers_of_ascending (ascending_sortMembers _)]
termination_by structural j => j

theorem sorted_of_mem_sortedItems : (items : List Json) → ∀ j ∈ sortedItems items, j.sorted = j
  | [] => nofun
  | j :: items => by
    intro i hi
    rcases List.mem_cons.1 hi with rfl | hi
    · exact sorted_sorted j
    · exact sorted_of_mem_sortedItems items i hi
termination_by structural items => items

theorem sorted_of_mem_sortedMembers : (members : List (String × Json)) → ∀ m ∈ sortedMembers members, m.2.sorted = m.2
  | [] => nofun
  | (_, j) :: members => by
    intro m hm
    rcases List.mem_cons.1 hm with rfl | hm
    · exact sorted_sorted j
    · exact sorted_of_mem_sortedMembers members m hm
termination_by structural members => members

end

end OrderDesk.Json
