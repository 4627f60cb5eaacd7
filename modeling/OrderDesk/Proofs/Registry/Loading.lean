import Mathlib.Data.List.Induction
import OrderDesk.Proofs.Registry.Operations

/-!
# Loading a list of entities

A registry that replaces by id takes in a list of entities in one go. An id
keeps the place where the list names it first, and gets the entity that the list
gives it last. Main result: `replaceAll_closed_form`.
-/

namespace OrderDesk.Registry

variable {kind : EntityKind}

/-- The last of some entities with an id. -/
def lastOf (id : String) (es : List (Element kind)) : Option (Element kind) := (es.filter (·.id = id)).getLast?

/-- The ids in the order in which they first occur, each with its last entity. -/
def survivors (es : List (Element kind)) : List (Element kind) :=
  (es.map (·.id)).eraseDups.filterMap fun id => lastOf id es

theorem lastOf_concat (id : String) (es : List (Element kind)) (e : Element kind) :
    lastOf id (es ++ [e]) = if e.id = id then some e else lastOf id es := by
  rw [lastOf, List.filter_append, List.filter_singleton]
  by_cases h : e.id = id
  · simp [h]
  · simp [h, lastOf]

theorem id_of_lastOf {id : String} {es : List (Element kind)} {e : Element kind} (h : lastOf id es = some e) :
    e.id = id :=
  of_decide_eq_true (List.mem_filter.1 (List.mem_of_getLast? h)).2

theorem exists_lastOf_iff {id : String} {es : List (Element kind)} :
    (∃ e, lastOf id es = some e) ↔ id ∈ es.map (·.id) := by
  rw [← Option.ne_none_iff_exists', lastOf, ne_eq, List.getLast?_eq_none_iff, List.filter_eq_nil_iff]
  simp

theorem eraseDups_concat (ids : List String) (id : String) :
    (ids ++ [id]).eraseDups = ids.eraseDups ++ if id ∈ ids then [] else [id] := by
  rw [List.eraseDups_append]
  by_cases h : id ∈ ids
  · simp [List.removeAll, h]
  · simp [List.removeAll, h, List.eraseDups_cons]

theorem mem_survivors {es : List (Element kind)} {e : Element kind} : e ∈ survivors es ↔ lastOf e.id es = some e := by
  rw [survivors, List.mem_filterMap]
  constructor
  · rintro ⟨id, -, h⟩
    rwa [id_of_lastOf h]
  · intro h
    exact ⟨e.id, List.mem_eraseDups.2 (exists_lastOf_iff.1 ⟨e, h⟩), h⟩

theorem ids_survivors (es : List (Element kind)) : (survivors es).map (·.id) = (es.map (·.id)).eraseDups := by
  rw [survivors, List.map_filterMap]
  refine (List.filterMap_congr fun id hid => ?_).trans List.filterMap_some
  obtain ⟨e, he⟩ := exists_lastOf_iff.2 (List.mem_eraseDups.1 hid)
  rw [he, Option.map_some, id_of_lastOf he]

theorem survivors_concat_of_mem {es : List (Element kind)} {e : Element kind} (h : e.id ∈ es.map (·.id)) :
    survivors (es ++ [e]) = (survivors es).map fun x => if x.id = e.id then e else x := by
  rw [survivors, survivors, List.map_append, List.map_singleton, eraseDups_concat, if_pos h, List.append_nil,
    List.map_filterMap]
  refine List.filterMap_congr fun id hid => ?_
  obtain ⟨x, hx⟩ := exists_lastOf_iff.2 (List.mem_eraseDups.1 hid)
  rw [lastOf_concat, hx, ← id_of_lastOf hx]
  by_cases hsame : e.id = x.id
  · simp [hsame]
  · simp [hsame, Ne.symm hsame]

theorem survivors_concat_of_not_mem {es : List (Element kind)} {e : Element kind} (h : e.id ∉ es.map (·.id)) :
    survivors (es ++ [e]) = survivors es ++ [e] := by
  rw [survivors, List.map_append, List.map_singleton, eraseDups_concat, if_neg h, List.filterMap_append]
  congr 1
  · refine List.filterMap_congr fun id hid => ?_
    have hne : e.id ≠ id := fun heq => h (heq ▸ List.mem_eraseDups.1 hid)
    rw [lastOf_concat, if_neg hne]
  · simp [lastOf_concat]

theorem fileAll_eq_survivors (es : List (Element kind)) :
    Listing.fileAll .replaceById [] es = (survivors es).map fun e => (e.id, e) := by
  -- on the entity that is taken in last: its id has a place already, or goes to the end
  induction es using List.reverseRecOn with
  | nil => rfl
  | append_singleton es e ih =>
    have hown := Entries.own_nil.listingFileAll .replaceById es
    have hids : Entries.ids ((survivors es).map fun x => (x.id, x)) = (es.map (·.id)).eraseDups := by
      rw [Entries.ids, List.map_map]
      exact ids_survivors es
    have hmem : e.id ∈ Entries.ids ((survivors es).map fun x => (x.id, x)) ↔ e.id ∈ es.map (·.id) := by
      rw [hids, List.mem_eraseDups]
    rw [ih] at hown
    rw [Listing.fileAll, List.foldl_concat, ← Listing.fileAll, ih, Listing.file, Entries.fileUnder_own,
      hown.file_eq_put]
    by_cases h : e.id ∈ es.map (·.id)
    · rw [Entries.put, if_pos (hmem.2 h), survivors_concat_of_mem h, List.map_map, List.map_map]
      refine List.map_congr_left fun x _ => ?_
      simp only [Function.comp_apply]
      split <;> rfl
    · rw [Entries.put, if_neg (mt hmem.1 h), survivors_concat_of_not_mem h, List.map_append, List.map_singleton]

namespace Of

variable {r : Of kind}

theorem all_of_replaceById (hp : r.val.policy = .replaceById) : r.all = Entries.values r.listing.entries := by
  obtain ⟨r, rfl⟩ := r
  have hall : r.all = Policy.arrange .replaceById r.store.values := congrArg (Policy.arrange · _) hp
  exact hall.trans r.store.values_eq

theorem own_replaceAll (r : Of kind) (es : List (Element kind)) : (r.after (.replaceAll es)).val.Own := by
  obtain ⟨r, rfl⟩ := r
  exact r.own_replaceAll es

theorem all_replaceAll (hp : r.val.policy = .replaceById) (es : List (Element kind)) :
    (r.after (.replaceAll es)).all = Entries.values (Listing.fileAll .replaceById [] es) := by
  rw [all_of_replaceById ((r.policy_after _).trans hp), listing_after, hp]
  rfl

theorem all_replaceAll_of_nodup (hp : r.val.policy = .replaceById) {es : List (Element kind)}
    (h : (es.map (·.id)).Nodup) : (r.after (.replaceAll es)).all = es := by
  rw [all_replaceAll hp, Entries.own_nil.listingFileAll_eq_append _ _ h, List.nil_append, Entries.values, List.map_map]
  exact List.map_id _

end Of

/-- Loading a list takes out what was there. Each id that the list names stands
where it is named first, with the entity that is named last, and is looked up
as that. A registry that is loaded with what is listed now lists the same. -/
theorem replaceAll_closed_form (r : Of kind) (hp : r.val.policy = .replaceById) (es : List (Element kind)) :
    let loaded := r.after (.replaceAll es)
    r.perform (.change (.replaceAll es)) = .ok loaded.val ∧
      r.perform (.replaceEntities (es.map (·.entity))) = .ok loaded.val ∧
      loaded.all = survivors es ∧
      loaded.all.map (·.id) = (es.map (·.id)).eraseDups ∧
      (∀ id, loaded.get? id = lastOf id es) ∧
      (∀ id, (∃ e, loaded.get? id = some e) ↔ id ∈ es.map (·.id)) ∧
      ∀ r' : Of kind, r'.val.policy = .replaceById → (r'.after (.replaceAll loaded.all)).all = loaded.all := by
  intro loaded
  have hall : loaded.all = survivors es := by
    rw [Of.all_replaceAll hp, fileAll_eq_survivors, Entries.values, List.map_map]
    exact List.map_id _
  have hget : ∀ id, loaded.get? id = lastOf id es := by
    intro id
    ext e
    rw [Of.get?_eq_some_iff (r.own_replaceAll es), hall, mem_survivors]
    constructor
    · rintro ⟨h, rfl⟩
      exact h
    · intro h
      obtain rfl := id_of_lastOf h
      exact ⟨h, rfl⟩
  refine ⟨?_, ?_, hall, hall ▸ ids_survivors es, hget, fun id => ?_, fun r' hp' => ?_⟩
  · obtain ⟨r, rfl⟩ := r
    rfl
  · obtain ⟨r, rfl⟩ := r
    change r.replaceEntities _ = _
    rw [replaceEntities, elements_map]
    rfl
  · rw [hget, exists_lastOf_iff]
  · exact Of.all_replaceAll_of_nodup hp' (Of.nodup_ids (r.own_replaceAll es))

/-- An id twice with two prices, and once more with the first: the last price
at the first place. -/
theorem replaceAll_closed_form_repeated :
    let option : String → Int64 → Element .menuOption := fun id price => ⟨.menuOption ⟨id, id, price⟩, rfl⟩
    let r := (Of.empty "options" .replaceById nofun : Of .menuOption).after (.upsert (option "oat" 300))
    let loaded := r.after (.replaceAll [option "shot" 500, option "ice" 0, option "shot" 600, option "shot" 500])
    r.val.policy = .replaceById ∧ loaded.all = [option "shot" 500, option "ice" 0] ∧ loaded.get? "oat" = none ∧
      (r.after (.replaceAll loaded.all)).all = [option "shot" 500, option "ice" 0] := by
  intro option r loaded
  have hsurvivors : survivors [option "shot" 500, option "ice" 0, option "shot" 600, option "shot" 500] =
      [option "shot" 500, option "ice" 0] := by decide
  obtain ⟨-, -, hall, -, hget, -, hagain⟩ :=
    replaceAll_closed_form r rfl [option "shot" 500, option "ice" 0, option "shot" 600, option "shot" 500]
  exact ⟨rfl, hall.trans hsurvivors, hget "oat", (hagain r rfl).trans (hall.trans hsurvivors)⟩

end OrderDesk.Registry
