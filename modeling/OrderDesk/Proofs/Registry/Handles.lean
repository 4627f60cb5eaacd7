import OrderDesk.Proofs.Registry.Loading
import OrderDesk.Registry.Snapshot

/-!
# Handles of registries

A registry is reached through its slot, for good. The look-ups by id go by the
index and the listings go by the slots; the ids are the registries' own. Whatever
is registered, and whatever is done through the slots, they agree. Main result:
`afterDeeds_reaches`.
-/

namespace OrderDesk

namespace Registry

variable {r : Registry} {op : Operation r.kind}

theorem id_afterOperation : (r.afterOperation op).id = r.id := by
  obtain ⟨c, -, -, hafter⟩ | ⟨e, -, hafter⟩ := r.afterOperation_cases op
  · rw [hafter]
    exact r.id_after c
  · rw [hafter]

/-- What a caller knows of a registry that it has a handle of. -/
structure SameSort (r r' : Registry) : Prop where
  id : r'.id = r.id
  kind : r'.kind = r.kind
  policy : r'.policy = r.policy

theorem SameSort.refl (r : Registry) : r.SameSort r := ⟨rfl, rfl, rfl⟩

theorem SameSort.trans {r' r'' : Registry} (h : r.SameSort r') (h' : r'.SameSort r'') : r.SameSort r'' :=
  ⟨h'.id.trans h.id, h'.kind.trans h.kind, h'.policy.trans h.policy⟩

theorem sameSort_afterOperation : r.SameSort (r.afterOperation op) :=
  ⟨id_afterOperation, r.kind_afterOperation op, Of.policy_afterOperation ⟨r, rfl⟩ op⟩

theorem sameSort_freeze : r.SameSort r.freeze := ⟨rfl, rfl, rfl⟩

end Registry

namespace Directory

/-- What a node does with its registries: it registers one more, it calls an
operation of the one in a slot, or it freezes them all. -/
inductive Deed
  | register (r : Registry)
  | operate (slot : Nat) (op : (kind : EntityKind) → Registry.Operation kind)
  | freezeAll

def Deed.registered? : Deed → Option Registry
  | register r => some r
  | _ => none

def afterDeed (d : Directory) : Deed → Directory
  | .register r =>
    match d.register r with
    | .ok d' => d'
    | .error _ => d
  | .operate slot op =>
    match d.registries[slot]? with
    | some r => d.set (r.afterOperation (op r.kind))
    | none => d
  | .freezeAll => d.freezeAll

def afterDeeds (d : Directory) (deeds : List Deed) : Directory := deeds.foldl afterDeed d

/-- The ids that were to be registered, in order. -/
def attempted (deeds : List Deed) : List String := (deeds.filterMap Deed.registered?).map (·.id)

variable {d d' : Directory} {id : String} {i : Nat} {r : Registry} {deed : Deed}

/-! ## One deed -/

theorem eq_of_slot (hi : d.registries[i]? = some r) {j : Nat} {q : Registry} (hj : d.registries[j]? = some q)
    (h : q.id = r.id) : j = i := by
  have hslot : d.slot? r.id = some j := h ▸ slot?_of_getElem? hj
  exact Option.some.inj (hslot.symm.trans (slot?_of_getElem? hi))

/-- Only the slot of the registry is written. -/
theorem registries_set (hi : d.registries[i]? = some r) {r' : Registry} (hid : r'.id = r.id) :
    (d.set r').registries = d.registries.set i r' := by
  refine List.ext_getElem? fun j => ?_
  change (replaced r' d.registries)[j]? = _
  rw [replaced, List.getElem?_map, List.getElem?_set]
  by_cases hj : i = j
  · subst hj
    have hlt : i < d.registries.length := (List.getElem?_eq_some_iff.1 hi).1
    rw [hi, Option.map_some, if_pos hid.symm, if_pos rfl, if_pos hlt]
  · rw [if_neg hj]
    cases hq : d.registries[j]? with
    | none => rfl
    | some q => rw [Option.map_some, if_neg fun heq => hj (eq_of_slot hi hq (heq.trans hid)).symm]

/-- What a deed can do to the registries. -/
inductive Done (d : Directory) : Deed → List Registry → Prop
  | refused (r : Registry) (h : r.id = RegistryId.all ∨ r.id ∈ d.ids) : Done d (.register r) d.registries
  | registered (r : Registry) (h : ¬ (r.id = RegistryId.all ∨ r.id ∈ d.ids)) :
    Done d (.register r) (d.registries ++ [r])
  | operated (slot : Nat) (op : (kind : EntityKind) → Registry.Operation kind) (r : Registry)
    (h : d.registries[slot]? = some r) :
    Done d (.operate slot op) (d.registries.set slot (r.afterOperation (op r.kind)))
  | astray (slot : Nat) (op : (kind : EntityKind) → Registry.Operation kind) (h : d.registries[slot]? = none) :
    Done d (.operate slot op) d.registries
  | frozen : Done d .freezeAll (d.registries.map Registry.freeze)

theorem done (d : Directory) (deed : Deed) : d.Done deed (d.afterDeed deed).registries := by
  cases deed with
  | register r =>
    rw [afterDeed]
    cases hr : d.register r with
    | error e => exact .refused r (register_eq_error_iff.1 hr).1
    | ok d' =>
      obtain ⟨hall, hnew, hrs⟩ := register_eq_ok_iff.1 hr
      dsimp only
      rw [hrs]
      exact .registered r (not_or.2 ⟨hall, hnew⟩)
  | operate slot op =>
    rw [afterDeed]
    cases hr : d.registries[slot]? with
    | none => exact .astray slot op hr
    | some r =>
      dsimp only
      rw [registries_set hr Registry.id_afterOperation]
      exact .operated slot op r hr
  | freezeAll => exact .frozen

theorem sameSort_afterDeed (h : d.registries[i]? = some r) (deed : Deed) :
    ∃ r', (d.afterDeed deed).registries[i]? = some r' ∧ r.SameSort r' := by
  have hdone := done d deed
  have hlt : i < d.registries.length := (List.getElem?_eq_some_iff.1 h).1
  generalize (d.afterDeed deed).registries = rs at hdone
  cases hdone with
  | refused | astray => exact ⟨r, h, .refl r⟩
  | registered q => exact ⟨r, (List.getElem?_append_left hlt).trans h, .refl r⟩
  | operated slot op q hq =>
    rw [List.getElem?_set]
    by_cases hslot : slot = i
    · subst hslot
      cases hq.symm.trans h
      rw [if_pos rfl, if_pos hlt]
      exact ⟨_, rfl, Registry.sameSort_afterOperation⟩
    · rw [if_neg hslot]
      exact ⟨r, h, .refl r⟩
  | frozen =>
    rw [List.getElem?_map, h]
    exact ⟨_, rfl, Registry.sameSort_freeze⟩

def added (d : Directory) : Deed → List String
  | .register r => if r.id = RegistryId.all ∨ r.id ∈ d.ids then [] else [r.id]
  | .operate .. | .freezeAll => []

theorem ids_afterDeed (d : Directory) (deed : Deed) : (d.afterDeed deed).ids = d.ids ++ d.added deed := by
  have hdone := done d deed
  change (d.afterDeed deed).registries.map (·.id) = _
  generalize (d.afterDeed deed).registries = rs at hdone
  cases hdone with
  | refused r h => rw [added, if_pos h, List.append_nil, ids]
  | registered r h => rw [added, if_neg h, List.map_append, ids, List.map_singleton]
  | operated slot op r h =>
    obtain ⟨hlt, rfl⟩ := List.getElem?_eq_some_iff.1 h
    rw [added, List.append_nil, List.map_set, Registry.id_afterOperation, ← List.map_set, List.set_getElem_self, ids]
  | astray => rw [added, List.append_nil, ids]
  | frozen => rw [added, List.append_nil, ids_freeze, ids]

/-! ## Any deeds -/

theorem sameSort_afterDeeds (h : d.registries[i]? = some r) (deeds : List Deed) :
    ∃ r', (d.afterDeeds deeds).registries[i]? = some r' ∧ r.SameSort r' := by
  induction deeds generalizing d r with
  | nil => exact ⟨r, h, .refl r⟩
  | cons deed deeds ih =>
    obtain ⟨q, hq, hsort⟩ := sameSort_afterDeed h deed
    obtain ⟨r', hr', hsort'⟩ := ih hq
    exact ⟨r', hr', hsort.trans hsort'⟩

theorem attempted_concat (deeds : List Deed) (deed : Deed) :
    attempted (deeds ++ [deed]) = attempted deeds ++ (deed.registered?.map (·.id)).toList := by
  cases hr : deed.registered? <;> simp [attempted, hr]

/-- The ids are in the order in which they were first registered. -/
theorem ids_afterDeeds (deeds : List Deed) :
    (empty.afterDeeds deeds).ids = ((attempted deeds).filter (· ≠ RegistryId.all)).eraseDups := by
  -- on the deed that comes last
  induction deeds using List.reverseRecOn with
  | nil => rfl
  | append_singleton deeds deed ih =>
    rw [afterDeeds, List.foldl_append, List.foldl_cons, List.foldl_nil]
    change ((empty.afterDeeds deeds).afterDeed deed).ids = _
    rw [ids_afterDeed, ih, attempted_concat, List.filter_append]
    cases deed with
    | operate | freezeAll => simp [added, Deed.registered?]
    | register r =>
      simp only [added, ih, List.mem_eraseDups, Deed.registered?, Option.map_some, Option.toList_some]
      by_cases hall : r.id = RegistryId.all
      · simp [hall]
      · have hkept : [r.id].filter (· ≠ RegistryId.all) = [r.id] := by simp [hall]
        simp only [hkept, Registry.eraseDups_concat, or_iff_right hall]

/-! ## The ways to a registry -/

/-- All ways to the registry of an id lead to the one in this slot. -/
structure Reaches (d : Directory) (id : String) (i : Nat) (r : Registry) : Prop where
  own : r.id = id
  slot : d.slot? id = some i
  listed : d.registries[i]? = some r
  get : d.get? id = some r
  require : d.require id = .ok r
  typed : ∀ kind policy, d.typed? id kind policy = if r.kind = kind ∧ r.policy = policy then some r else none
  answer : d.answer ⟨id⟩ = .ok [⟨id, r.all.map (·.entity)⟩]

theorem reaches (h : d.registries[i]? = some r) : d.Reaches r.id i r := by
  have hmem : r ∈ d.registries := List.mem_of_getElem? h
  have hget : d.get? r.id = some r := get?_of_mem hmem
  have hall : r.id ≠ RegistryId.all := fun heq => d.all_not_mem (heq ▸ List.mem_map_of_mem hmem)
  refine ⟨rfl, slot?_of_getElem? h, h, hget, require_eq_ok_iff.2 hget, fun kind policy => ?_, ?_⟩
  · rw [typed?, hget, Option.filter_some]
    simp
  · rw [answer, if_neg hall, require_eq_ok_iff.2 hget]
    rfl

theorem exists_reaches (h : d.ids[i]? = some id) : ∃ r, d.Reaches id i r := by
  rw [ids, List.getElem?_map, Option.map_eq_some_iff] at h
  obtain ⟨r, hr, rfl⟩ := h
  exact ⟨r, reaches hr⟩

theorem get?_eq_none_iff : d.get? id = none ↔ id ∉ d.ids := by
  rw [Option.eq_none_iff_forall_ne_some]
  constructor
  · intro h hmem
    obtain ⟨r, hr, rfl⟩ := List.mem_map.1 hmem
    exact h r (get?_of_mem hr)
  · intro h r hr
    exact h (id_of_get? hr ▸ List.mem_map_of_mem (mem_of_get? hr))

theorem require_eq_error (h : id ∉ d.ids) : d.require id = .error (.unknownRegistry id) := by
  rw [require, get?_eq_none_iff.2 h]

theorem Reaches.afterDeeds (h : d.Reaches id i r) (deeds : List Deed) :
    ∃ r', (d.afterDeeds deeds).Reaches id i r' ∧ r.SameSort r' := by
  obtain ⟨r', hr', hsort⟩ := sameSort_afterDeeds h.listed deeds
  have hid : r'.id = id := hsort.id.trans h.own
  exact ⟨r', hid ▸ reaches hr', hsort⟩

/-- What is written through a slot is seen on every way, and there alone. -/
theorem Reaches.operate (h : d.Reaches id i r) (op : (kind : EntityKind) → Registry.Operation kind) :
    let d' := d.afterDeed (.operate i op)
    d'.Reaches id i (r.afterOperation (op r.kind)) ∧ ∀ id' j q, j ≠ i → d.Reaches id' j q → d'.Reaches id' j q := by
  intro d'
  have hrs : d'.registries = d.registries.set i (r.afterOperation (op r.kind)) := by
    have hd' : d' = d.set (r.afterOperation (op r.kind)) := by
      change d.afterDeed _ = _
      rw [afterDeed, h.listed]
    rw [hd', registries_set h.listed Registry.id_afterOperation]
  have hlt : i < d.registries.length := (List.getElem?_eq_some_iff.1 h.listed).1
  constructor
  · have hi : d'.registries[i]? = some (r.afterOperation (op r.kind)) := by rw [hrs, List.getElem?_set_self hlt]
    have hreaches := reaches hi
    rwa [Registry.id_afterOperation, h.own] at hreaches
  · intro id' j q hj hq
    have hjq : d'.registries[j]? = some q := by rw [hrs, List.getElem?_set_ne hj.symm, hq.listed]
    exact hq.own ▸ reaches hjq

theorem reaches_registered (hall : r.id ≠ RegistryId.all) (hnew : r.id ∉ d.ids) :
    (d.afterDeed (.register r)).Reaches r.id d.ids.length r := by
  have hdone := done d (.register r)
  generalize hrs : (d.afterDeed (.register r)).registries = rs at hdone
  cases hdone with
  | refused _ h => exact absurd h (not_or.2 ⟨hall, hnew⟩)
  | registered =>
    refine reaches ?_
    rw [hrs, ids, List.length_map, List.getElem?_concat_length]

theorem mapM_eq_ok_map {α β ε : Type} {f : α → Except ε β} {g : α → β} {as : List α} (h : ∀ a ∈ as, f a = .ok (g a)) :
    as.mapM f = .ok (as.map g) := by
  induction as with
  | nil => rfl
  | cons a as ih =>
    rw [List.mapM_cons, h a List.mem_cons_self, ih fun b hb => h b (List.mem_cons_of_mem a hb)]
    rfl

theorem answer_all (d : Directory) :
    d.answer ⟨RegistryId.all⟩ = List.flatten <$> d.ids.mapM fun id => d.answer ⟨id⟩ := by
  have hone : ∀ r ∈ d.registries, d.answer ⟨r.id⟩ = .ok [r.response] := by
    intro r hr
    obtain ⟨i, hi⟩ := List.mem_iff_getElem?.1 hr
    exact (reaches hi).answer
  have heach : d.ids.mapM (fun id => d.answer ⟨id⟩) = .ok (d.registries.map fun r => [r.response]) := by
    rw [ids, List.mapM_map]
    exact mapM_eq_ok_map hone
  rw [heach, answer, if_pos rfl]
  exact congrArg Except.ok (List.map_eq_flatMap.trans List.flatMap_def)

/-- Whatever a node has done with its registries: the ids are those that it tried
to register but the reserved one, each once, in the order in which they first
came. A registry whose id is reserved or taken is refused, and nothing changes;
any other gets a new slot. Every id has a slot, for good, with a registry of the
same sort, and all ways lead there; no way leads from any other id. What is
written through a slot is seen on all ways to it, and there alone. What answers
the request for all registries is what answers the requests for one after the
other. -/
theorem afterDeeds_reaches (deeds : List Deed) :
    let d := empty.afterDeeds deeds
    (d.ids = ((attempted deeds).filter (· ≠ RegistryId.all)).eraseDups ∧ d.ids.Nodup ∧ RegistryId.all ∉ d.ids) ∧
      (∀ r, r.id = RegistryId.all ∨ r.id ∈ d.ids →
        d.register r = .error (.duplicateRegistry r.id) ∧ d.afterDeed (.register r) = d) ∧
      (∀ r, r.id ≠ RegistryId.all → r.id ∉ d.ids → (d.afterDeed (.register r)).Reaches r.id d.ids.length r) ∧
      (∀ i id, d.ids[i]? = some id → ∃ r, d.Reaches id i r ∧
        ∀ later, ∃ r', (d.afterDeeds later).Reaches id i r' ∧ r.SameSort r') ∧
      (∀ id, id ∉ d.ids → d.get? id = none ∧ d.require id = .error (.unknownRegistry id) ∧
        ∀ kind policy, d.typed? id kind policy = none) ∧
      (∀ id i r op, d.Reaches id i r →
        (d.afterDeed (.operate i op)).Reaches id i (r.afterOperation (op r.kind)) ∧
          ∀ id' j q, j ≠ i → d.Reaches id' j q → (d.afterDeed (.operate i op)).Reaches id' j q) ∧
      d.answer ⟨RegistryId.all⟩ = List.flatten <$> d.ids.mapM fun id => d.answer ⟨id⟩ := by
  intro d
  refine ⟨⟨ids_afterDeeds deeds, d.ids_nodup, d.all_not_mem⟩, fun r hr => ?_, fun r hall hnew => ?_, fun i id hi => ?_,
    fun id hid => ?_, fun id i r op h => h.operate op, d.answer_all⟩
  · have hrefused : d.register r = .error (.duplicateRegistry r.id) := register_eq_error_iff.2 ⟨hr, rfl⟩
    exact ⟨hrefused, by rw [afterDeed, hrefused]⟩
  · exact reaches_registered hall hnew
  · obtain ⟨r, hr⟩ := exists_reaches hi
    exact ⟨r, hr, hr.afterDeeds⟩
  · have hnone : d.get? id = none := get?_eq_none_iff.2 hid
    exact ⟨hnone, require_eq_error hid, fun kind policy => by rw [typed?, hnone, Option.filter_none]⟩

/-- Two attempts of six are refused, and a menu is added through a handle. -/
def stocked : List Deed :=
  [.register (.standard "menus" .menu), .register (.standard "all" .menu), .register (.standard "menus" .category),
    .operate 0 fun _ => .addEntity "latte" (.menu ⟨"latte", "Latte", 4500, "drinks", "", "", []⟩),
    .register (.standard "order" .order), .freezeAll]

theorem afterDeeds_reaches_stocked :
    let d := empty.afterDeeds stocked
    d.ids = ["menus", "order"] ∧ d.register (.standard "all" .order) = .error (.duplicateRegistry "all") ∧
      d.get? "all" = none ∧ (d.afterDeed (.register (.standard "options" .menuOption))).slot? "options" = some 2 ∧
      ∃ r, d.get? "menus" = some r ∧
        (d.afterDeed (.operate 0 fun _ => .evict "latte")).get? "menus" = some (r.evict "latte") ∧
        (d.afterDeed (.operate 0 fun _ => .evict "latte")).answer ⟨"menus"⟩ =
          .ok [⟨"menus", (r.evict "latte").all.map (·.entity)⟩] := by
  intro d
  obtain ⟨⟨hids, -⟩, hrefused, hnew, hreaches, hunknown, hwrites, -⟩ := afterDeeds_reaches stocked
  have hd : d.ids = ["menus", "order"] := hids.trans (by decide)
  obtain ⟨r, hr, -⟩ := hreaches 0 "menus" (by rw [hd]; rfl)
  have hwrite := (hwrites "menus" 0 r (fun _ => .evict "latte") hr).1
  refine ⟨hd, (hrefused (.standard "all" .order) (.inl rfl)).1, (hunknown "all" (by rw [hd]; decide)).1, ?_, r, hr.get,
    hwrite.get, hwrite.answer⟩
  have hslot := (hnew (.standard "options" .menuOption) (by decide) (by rw [hd]; decide)).slot
  rwa [hd] at hslot

end Directory

end OrderDesk
