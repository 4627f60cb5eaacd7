import OrderDesk.Proofs.Registry.Views

/-!
# Deleting, to the letter

What a deletion leaves in every registry, as functions on the lists of what is
filed there. A menu takes itself out of every category; a category takes its
menus along. Neither touches the slot of anything that stays.
-/

namespace OrderDesk

/-! ## What goes -/

namespace Entity

/-- A category without all menus of an id; anything else as it is. -/
def withoutMenu (menuId : String) : Entity → Entity
  | .category c => .category { c with menus := c.menus.filter (·.id ≠ menuId) }
  | e => e

/-- A menu that names the category as its own or whose id the category lists. -/
def Of (c : Category) : Entity → Prop
  | .menu m => m.categoryId = c.id ∨ m.id ∈ c.menus.map (·.id)
  | _ => False

instance (c : Category) : DecidablePred (Of c) := fun e =>
  match e with
  | .menu m => inferInstanceAs (Decidable (m.categoryId = c.id ∨ m.id ∈ c.menus.map (·.id)))
  | .order _ | .category _ | .menuOption _ | .optionGroup _ => inferInstanceAs (Decidable False)

end Entity

namespace Registry

/-- What the deletion of an entity does beyond its own registry. -/
inductive Cascade
  | none
  | strip (menuId : String)
  | drop (category : Category)

namespace Cascade

/-- A cascade reaches one registry, if it is there with its standard type. -/
def Reaches : Cascade → View → Prop
  | none, _ => False
  | strip _, v => v.id = RegistryId.categories ∧ v.kind = .category ∧ v.policy = .replaceById
  | drop _, v => v.id = RegistryId.menus ∧ v.kind = .menu ∧ v.policy = .replaceById

instance (c : Cascade) : DecidablePred c.Reaches := fun v =>
  match c with
  | none => inferInstanceAs (Decidable False)
  | strip _ =>
    inferInstanceAs (Decidable (v.id = RegistryId.categories ∧ v.kind = .category ∧ v.policy = .replaceById))
  | drop _ => inferInstanceAs (Decidable (v.id = RegistryId.menus ∧ v.kind = .menu ∧ v.policy = .replaceById))

def leaves : Cascade → List (String × Entity) → List (String × Entity)
  | none, l => l
  | strip menuId, l => l.map fun p => (p.1, p.2.withoutMenu menuId)
  | drop category, l => l.filter fun p => ¬p.2.Of category

end Cascade

namespace View

def transact (v : View) (g : List (String × Entity) → List (String × Entity)) : View :=
  { v with frozen := true, entries := g v.entries }

def reached (c : Cascade) (v : View) : View := if c.Reaches v then v.transact c.leaves else v

def category? (v : View) (id : String) : Option Category :=
  (v.entries.find? (·.1 = id)).bind fun p =>
    match p.2 with
    | .category c => some c
    | _ => none

def cascade (v : View) (id : String) : Cascade :=
  match v.kind with
  | .menu => .strip id
  | .category => (v.category? id).elim .none .drop
  | .order | .menuOption | .optionGroup => .none

/-- What is left of a registry when an entity is deleted from the registry of
`owner`. -/
def left (owner : View) (id : String) (v : View) : View :=
  if v.id = owner.id then v.transact (Entries.remove id) else v.reached (owner.cascade id)

end View

end Registry

/-! ## Stripping -/

namespace Element

variable {kind : EntityKind}

theorem withoutMenu?_category (menuId : String) (e : Element .category) :
    withoutMenu? menuId e = (e.category.withoutMenu menuId).map ofCategory := rfl

theorem entity_category (e : Element .category) : e.entity = .category e.category := by
  obtain ⟨x, hx⟩ := e
  cases x <;> cases hx
  rfl

theorem entity_withoutMenu? (menuId : String) (e : Element kind) :
    ((withoutMenu? menuId e).getD e).entity = e.entity.withoutMenu menuId := by
  cases kind with
  | category =>
    rw [withoutMenu?_category, entity_category e, Category.withoutMenu]
    split
    · rfl
    · next hlists =>
      have hall : ∀ m ∈ e.category.menus, m.id ≠ menuId := by simpa [Category.lists] using hlists
      have hmenus : e.category.menus.filter (·.id ≠ menuId) = e.category.menus := by simpa using hall
      show e.entity = _
      rw [entity_category, Entity.withoutMenu, hmenus]
  | order | menu | menuOption | optionGroup =>
    obtain ⟨x, hx⟩ := e
    cases x <;> cases hx
    rfl

theorem id_of_withoutMenu? {menuId : String} {e e' : Element kind} (h : withoutMenu? menuId e = some e') :
    e'.id = e.id ∧ e'.entity ≠ e.entity := by
  cases kind with
  | category =>
    rw [withoutMenu?_category, Category.withoutMenu] at h
    split at h
    · next hlists =>
      cases h
      have hid : e.id = e.category.id := congrArg Entity.elementId e.entity_category
      refine ⟨hid.symm, fun heq => ?_⟩
      rw [entity_category e] at heq
      have hmenus : e.category.menus.filter (·.id ≠ menuId) = e.category.menus :=
        congrArg Category.menus (Entity.category.inj heq)
      obtain ⟨m, hm, hmenu⟩ := List.any_eq_true.1 hlists
      exact absurd (of_decide_eq_true hmenu) (of_decide_eq_true (List.filter_eq_self.1 hmenus m hm))
    · cases h
  | order | menu | menuOption | optionGroup => cases h

theorem belongsTo_iff (category : Category) (e : Element kind) : e.belongsTo category ↔ e.entity.Of category := by
  rw [belongsTo]
  cases e.entity with
  | menu m => simp [Entity.Of, Category.lists]
  | order _ | category _ | menuOption _ | optionGroup _ => exact ⟨nofun, nofun⟩

end Element

namespace Entries

variable {kind : EntityKind}

theorem put_middle {α : Type} {done l : List (String × α)} {id : String} (a b : α)
    (hn : (ids (done ++ (id, a) :: l)).Nodup) : put id b (done ++ (id, a) :: l) = done ++ (id, b) :: l := by
  have hne : ∀ p ∈ done ++ l, p.1 ≠ id := by
    intro p hp heq
    have hperm : (ids (done ++ (id, a) :: l)).Perm (id :: ids (done ++ l)) := List.perm_middle.map _
    exact (List.nodup_cons.1 (hperm.nodup_iff.1 hn)).1 (heq ▸ mem_ids_of_mem hp)
  have hkeep : ∀ l' : List (String × α), (∀ p ∈ l', p.1 ≠ id) →
      l'.map (fun p => if p.1 = id then (id, b) else p) = l' := by
    intro l' hl'
    exact (List.map_congr_left fun p hp => if_neg (hl' p hp)).trans (List.map_id _)
  have hmem : id ∈ ids (done ++ (id, a) :: l) := mem_ids.2 ⟨a, List.mem_append_right _ List.mem_cons_self⟩
  rw [put, if_pos hmem, List.map_append, List.map_cons, if_pos rfl,
    hkeep done fun p hp => hne p (List.mem_append_left _ hp), hkeep l fun p hp => hne p (List.mem_append_right _ hp)]

/-- Filing again what some entities have become changes them in place. -/
theorem Own.fileAll_filterMap {f : Element kind → Option (Element kind)} (hf : ∀ e e', f e = some e' → e'.id = e.id)
    (policy : Policy) (done l : List (String × Element kind)) (hown : Own (done ++ l)) (hn : (ids (done ++ l)).Nodup) :
    Registry.Listing.fileAll policy (done ++ l) ((values l).filterMap f) =
      done ++ l.map fun p => (p.1, (f p.2).getD p.2) := by
  induction l generalizing done with
  | nil => rfl
  | cons p l ih =>
    have hp : p.1 = p.2.id := hown p (List.mem_append_right _ List.mem_cons_self)
    obtain ⟨b, hb, hfile⟩ : ∃ b, (f p.2).getD p.2 = b ∧
        Registry.Listing.fileAll policy (done ++ p :: l) ((values (p :: l)).filterMap f) =
          Registry.Listing.fileAll policy (done ++ (p.1, b) :: l) ((values l).filterMap f) := by
      refine ⟨_, rfl, ?_⟩
      rw [values, List.map_cons, List.filterMap_cons]
      cases hfp : f p.2 with
      | none => rfl
      | some e =>
        have hid : e.id = p.1 := (hf _ _ hfp).trans hp.symm
        show Registry.Listing.fileAll policy (Registry.Listing.file policy (done ++ p :: l) e.id e) _ = _
        rw [Registry.Listing.file, fileUnder_own, hown.file_eq_put, hid, put_middle p.2 e hn]
        rfl
    have hids : ids (done ++ (p.1, b) :: l) = ids (done ++ p :: l) := by simp [ids]
    have hbid : p.1 = b.id := by
      rw [← hb]
      cases hfp : f p.2 with
      | none => exact hp
      | some e => exact hp.trans (hf _ _ hfp).symm
    have hown' : Own ((done ++ [(p.1, b)]) ++ l) := by
      intro q hq
      simp only [List.append_assoc, List.singleton_append, List.mem_append, List.mem_cons] at hq
      rcases hq with hq | rfl | hq
      · exact hown q (List.mem_append_left _ hq)
      · exact hbid
      · exact hown q (List.mem_append_right _ (List.mem_cons_of_mem _ hq))
    rw [hfile, List.append_cons, ih (done ++ [(p.1, b)]) hown' (by rw [← List.append_cons, hids]; exact hn),
      List.append_assoc, List.map_cons, hb]
    rfl

theorem foldl_remove {α : Type} (l : List (String × α)) (gone : List String) :
    gone.foldl (fun l id => remove id l) l = l.filter (·.1 ∉ gone) := by
  induction gone generalizing l with
  | nil => simp
  | cons id gone ih =>
    rw [List.foldl_cons, ih, remove, List.filter_filter]
    refine List.filter_congr fun p _ => ?_
    simp [Bool.and_comm]

end Entries

/-! ## The lists that are left -/

namespace Registry

variable {r : Registry}

theorem entries_eq (r : Registry) : r.entries = untyped r.store.toList := rfl

theorem untyped_remove {kind : EntityKind} (id : String) (l : List (String × Element kind)) :
    untyped (Entries.remove id l) = Entries.remove id (untyped l) := by
  rw [untyped, untyped, Entries.remove, Entries.remove, List.filter_map]
  rfl

theorem ids_untyped {kind : EntityKind} (l : List (String × Element kind)) :
    Entries.ids (untyped l) = Entries.ids l := by
  simp [untyped, Entries.ids]

theorem untyped_put {kind : EntityKind} (id : String) (e : Element kind) (l : List (String × Element kind)) :
    untyped (Entries.put id e l) = Entries.put id e.entity (untyped l) := by
  rw [Entries.put, Entries.put, ids_untyped]
  split
  · rw [untyped, untyped, List.map_map, List.map_map]
    refine List.map_congr_left fun p _ => ?_
    simp only [Function.comp_apply]
    split <;> rfl
  · exact List.map_append

theorem entries_evict (r : Registry) (id : String) : untyped (r.store.erase id).toList = Entries.remove id r.entries := by
  rw [Store.toList_erase, untyped_remove]
  rfl

theorem has_iff (r : Registry) (id : String) : r.has id = true ↔ id ∈ Entries.ids r.entries := by
  rw [entries_eq, ids_untyped, Entries.mem_ids, has, Option.isSome_iff_exists]
  exact exists_congr fun e => r.store.get?_eq_some_iff

theorem has_iff_changed (r : Registry) (id : String) : r.has id = true ↔ Entries.remove id r.entries ≠ r.entries := by
  rw [has_iff]
  constructor
  · intro hid heq
    rw [← heq, Entries.mem_ids] at hid
    obtain ⟨e, he⟩ := hid
    exact (Entries.mem_remove.1 he).2 rfl
  · intro hne
    exact Classical.byContradiction fun hid => hne (Entries.remove_of_not_mem hid)

namespace Own

theorem id_of_mem_entries (h : r.Own) {p : String × Entity} (hp : p ∈ r.entries) : p.1 = p.2.elementId := by
  obtain ⟨q, hq, rfl⟩ := List.mem_map.1 hp
  exact h q hq

theorem entries_stripMenu (h : r.Own) (menuId : String) :
    untyped (fileAll r.policy r.store (stripped r.store menuId)).toList = (Cascade.strip menuId).leaves r.entries := by
  rw [toList_fileAll, stripped, Store.values_eq]
  have hfile := Entries.Own.fileAll_filterMap (f := Element.withoutMenu? menuId)
    (fun e e' he => (Element.id_of_withoutMenu? he).1) r.policy [] r.store.toList h r.store.distinct.ids
  rw [List.nil_append, List.nil_append] at hfile
  rw [hfile, Cascade.leaves, entries, untyped, List.map_map, List.map_map]
  exact List.map_congr_left fun p _ => congrArg (p.1, ·) (Element.entity_withoutMenu? menuId p.2)

end Own

theorem stripped_iff_changed (r : Registry) (menuId : String) :
    stripped r.store menuId ≠ [] ↔ (Cascade.strip menuId).leaves r.entries ≠ r.entries := by
  have hsame : (Cascade.strip menuId).leaves r.entries = r.entries ↔
      ∀ p ∈ r.store.toList, p.2.entity.withoutMenu menuId = p.2.entity := by
    rw [Cascade.leaves, entries, List.map_map, List.map_inj_left]
    exact forall₂_congr fun p _ => by simp
  rw [not_iff_not, hsame, stripped, Store.values_eq, Entries.values, List.filterMap_eq_nil_iff, List.forall_mem_map]
  refine forall₂_congr fun p _ => ?_
  constructor
  · intro hnone
    have := Element.entity_withoutMenu? menuId p.2
    rw [hnone] at this
    exact this.symm
  · intro heq
    refine Option.eq_none_iff_forall_not_mem.2 fun e he => ?_
    have := Element.entity_withoutMenu? menuId p.2
    rw [Option.mem_def.1 he] at this
    exact (Element.id_of_withoutMenu? he).2 (this.trans heq)

namespace Own

theorem mem_menusOf (h : r.Own) (category : Category) {p : String × Element r.kind} (hp : p ∈ r.store.toList) :
    p.1 ∈ menusOf r.store category ↔ p.2.entity.Of category := by
  rw [menusOf, Store.values_eq, List.mem_map, ← Element.belongsTo_iff]
  constructor
  · rintro ⟨e, he, hid⟩
    obtain ⟨hmem, hof⟩ := List.mem_filter.1 he
    obtain ⟨q, hq, rfl⟩ := List.mem_map.1 hmem
    obtain rfl := r.store.distinct.eq_of_id hq hp ((h q hq).trans hid)
    exact hof
  · intro hof
    exact ⟨p.2, List.mem_filter.2 ⟨List.mem_map_of_mem hp, hof⟩, (h p hp).symm⟩

theorem entries_dropMenusOf (h : r.Own) (category : Category) :
    untyped ((menusOf r.store category).foldl (·.erase ·) r.store).toList =
      (Cascade.drop category).leaves r.entries := by
  rw [toList_foldl_erase, Entries.foldl_remove, Cascade.leaves, untyped, entries, List.filter_map]
  refine congrArg _ (List.filter_congr fun p hp => ?_)
  simp only [Function.comp_apply, decide_eq_decide]
  exact not_congr (h.mem_menusOf category hp)

theorem menusOf_iff_changed (h : r.Own) (category : Category) :
    (menusOf r.store category).any r.has = true ↔ (Cascade.drop category).leaves r.entries ≠ r.entries := by
  have hsame : (Cascade.drop category).leaves r.entries = r.entries ↔
      ∀ p ∈ r.store.toList, ¬p.2.entity.Of category := by
    rw [Cascade.leaves, List.filter_eq_self, entries, List.forall_mem_map]
    exact forall₂_congr fun p _ => decide_eq_true_iff
  rw [Ne, hsame, List.any_eq_true]
  push Not
  constructor
  · rintro ⟨id, hid, hhas⟩
    obtain ⟨e, he⟩ := Option.isSome_iff_exists.1 hhas
    have hmem : (id, e) ∈ r.store.toList := r.store.get?_eq_some_iff.1 he
    exact ⟨(id, e), hmem, (h.mem_menusOf category hmem).1 hid⟩
  · rintro ⟨p, hp, hof⟩
    refine ⟨p.1, (h.mem_menusOf category hp).2 hof, ?_⟩
    exact Option.isSome_iff_exists.2 ⟨p.2, r.store.get?_eq_some_iff.2 hp⟩

end Own

theorem category?_view (r : Registry) (id : String) : r.view.category? id = r.category? id := by
  have hfind : r.entries.find? (·.1 = id) = (r.get? id).map fun e => (id, e.entity) := by
    cases hget : r.get? id with
    | none =>
      refine List.find?_eq_none.2 fun p hp hid => ?_
      have hhas : r.has id = true := (r.has_iff id).2 (of_decide_eq_true hid ▸ Entries.mem_ids_of_mem hp)
      rw [has, hget] at hhas
      cases hhas
    | some e =>
      have hmem : (id, e) ∈ r.store.toList := r.store.get?_eq_some_iff.1 hget
      cases hp : r.store.toList.find? (·.1 = id) with
      | none => exact absurd (decide_eq_true rfl) (List.find?_eq_none.1 hp _ hmem)
      | some p =>
        have hid := List.find?_some hp
        rw [decide_eq_true_eq] at hid
        obtain rfl := r.store.distinct.eq_of_id (List.mem_of_find?_eq_some hp) hmem hid
        rw [entries, List.find?_map]
        exact congrArg (Option.map _) hp
  rw [View.category?, category?]
  show (r.entries.find? (·.1 = id)).bind _ = _
  rw [hfind, Option.bind_map]
  rfl

end Registry

/-! ## Directories -/

namespace Directory

variable {d : Directory} {r : Registry} {f : Store (Element r.kind) → Store (Element r.kind)}
  {g : List (String × Entity) → List (String × Entity)}

theorem views_set_transact (hr : d.get? r.id = some r) (hg : Registry.untyped (f r.store).toList = g r.entries) :
    (d.set (r.transact f)).views = d.views.map fun v => if v.id = r.id then v.transact g else v := by
  show (replaced (r.transact f) d.registries).map Registry.view = (d.registries.map Registry.view).map _
  rw [replaced, List.map_map, List.map_map]
  refine List.map_congr_left fun q hq => ?_
  simp only [Function.comp_apply]
  by_cases hid : q.id = r.id
  · rw [if_pos (show q.id = (r.transact f).id from hid), if_pos (show q.view.id = r.id from hid),
      eq_of_id hq (mem_of_get? hr) hid, Registry.view_transact, hg]
    rfl
  · rw [if_neg (show q.id ≠ (r.transact f).id from hid), if_neg (show q.view.id ≠ r.id from hid)]

theorem contents_of_get? {id : String} (h : d.get? id = some r) : d.contents id = r.entries := by
  rw [contents, h]
  rfl

theorem contents_set_transact (hr : d.get? r.id = some r) (id : String) :
    (d.set (r.transact f)).contents id = if r.id = id then Registry.untyped (f r.store).toList else d.contents id := by
  rw [contents, get?_set_transact hr]
  split <;> rfl

/-- Something is filed under an id in a registry. -/
def Files (d : Directory) (registryId id : String) : Prop := id ∈ Entries.ids (d.contents registryId)

theorem files_iff {q id : String} (hr : d.get? q = some r) : d.Files q id ↔ id ∈ Entries.ids r.store.toList := by
  rw [Files, contents_of_get? hr, Registry.entries_eq, Registry.ids_untyped]

theorem typed?_of_mem {q : Registry} (hq : q ∈ d.registries) {id : String} {kind : EntityKind} {policy : Policy} :
    d.typed? id kind policy = some q ↔ q.id = id ∧ q.kind = kind ∧ q.policy = policy := by
  rw [typed?_eq_some_iff]
  refine and_congr_left fun _ => ⟨id_of_get?, ?_⟩
  rintro rfl
  exact get?_of_mem hq

end Directory

namespace Registry.Cascade

variable {c : Cascade} {v w : View}

theorem Reaches.id_eq (hv : c.Reaches v) (hw : c.Reaches w) : v.id = w.id := by
  cases c with
  | none => cases hv
  | strip | drop => exact hv.1.trans hw.1.symm

theorem Reaches.congr (hv : c.Reaches v) (hid : v.id = w.id) (hkind : v.kind = w.kind) (hpolicy : v.policy = w.policy) :
    c.Reaches w := by
  cases c with
  | none => exact hv
  | strip | drop => exact ⟨hid ▸ hv.1, hkind ▸ hv.2.1, hpolicy ▸ hv.2.2⟩

theorem reaches_transact (g : List (String × Entity) → List (String × Entity)) :
    c.Reaches (v.transact g) ↔ c.Reaches v := by
  cases c <;> exact .rfl

/-- The registry of a deletion is not the one that its cascade goes to. -/
theorem kind_ne_of_reaches {owner : View} {id : String} (h : (owner.cascade id).Reaches v) : v.kind ≠ owner.kind := by
  intro hkind
  unfold View.cascade at h
  cases howner : owner.kind with
  | menu =>
    rw [howner] at h
    cases h.2.1.symm.trans (hkind.trans howner)
  | category =>
    rw [howner] at h
    cases hcategory : owner.category? id with
    | none =>
      rw [hcategory] at h
      cases h
    | some category =>
      rw [hcategory] at h
      cases h.2.1.symm.trans (hkind.trans howner)
  | order | menuOption | optionGroup =>
    rw [howner] at h
    cases h

end Registry.Cascade

/-! ## Deletions under way -/

namespace Deletion

open Registry (Cascade View)

variable {d : Directory} {first : String} {x : Deletion} {c : Cascade}

def through (x : Deletion) : Cascade → Deletion
  | .none => x
  | .strip menuId => x.stripMenu menuId
  | .drop category => x.dropMenusOf category

/-- A cascade finds no registry to go to, or rewrites the one that it reaches. -/
inductive Through (x : Deletion) (c : Cascade) : Deletion → Prop
  | nowhere (h : ∀ r ∈ x.directory.registries, ¬c.Reaches r.view) : Through x c x
  | put {r : Registry} {f : Store (Element r.kind) → Store (Element r.kind)} {lost : Bool}
      (hr : x.directory.get? r.id = some r) (hreach : c.Reaches r.view)
      (hleaves : Registry.untyped (f r.store).toList = c.leaves r.entries)
      (hlost : lost = true ↔ c.leaves r.entries ≠ r.entries) : Through x c (x.put (r.transact f) lost)

theorem through_spec (c : Cascade) (hown : ∀ r ∈ x.directory.registries, c.Reaches r.view → r.Own) :
    Through x c (x.through c) := by
  cases c with
  | none => exact .nowhere fun _ _ => id
  | strip menuId =>
    show Through x _ (x.stripMenu menuId)
    unfold stripMenu
    split
    · next hnone =>
      refine .nowhere fun r hr hreach => ?_
      cases hnone.symm.trans ((Directory.typed?_of_mem hr).2 hreach)
    · next r hr =>
      have hget := Directory.get?_self (Directory.typed?_eq_some_iff.1 hr).1
      have hmem := Directory.mem_of_get? hget
      have hreach := (Directory.typed?_of_mem hmem).1 hr
      refine .put (f := fun store => Registry.fileAll r.policy store (Registry.stripped store menuId)) hget hreach
        ((hown r hmem hreach).entries_stripMenu menuId) ?_
      rw [decide_eq_true_iff]
      exact r.stripped_iff_changed menuId
  | drop category =>
    show Through x _ (x.dropMenusOf category)
    unfold dropMenusOf
    split
    · next hnone =>
      refine .nowhere fun r hr hreach => ?_
      cases hnone.symm.trans ((Directory.typed?_of_mem hr).2 hreach)
    · next r hr =>
      have hget := Directory.get?_self (Directory.typed?_eq_some_iff.1 hr).1
      have hmem := Directory.mem_of_get? hget
      have hreach := (Directory.typed?_of_mem hmem).1 hr
      have hof := hown r hmem hreach
      exact .put (f := fun store => (Registry.menusOf store category).foldl (·.erase ·) store) hget hreach
        (hof.entries_dropMenusOf category) (hof.menusOf_iff_changed category)

theorem Through.views {y : Deletion} (h : Through x c y) :
    y.directory.views = x.directory.views.map (View.reached c) := by
  cases h with
  | nowhere h =>
    refine ((List.map_congr_left fun v hv => ?_).trans (List.map_id _)).symm
    obtain ⟨r, hr, rfl⟩ := List.mem_map.1 hv
    exact if_neg (h r hr)
  | @put r f lost hr hreach hleaves hlost =>
    refine (Directory.views_set_transact hr hleaves).trans (List.map_congr_left fun v hv => ?_)
    obtain ⟨q, hq, rfl⟩ := List.mem_map.1 hv
    by_cases hid : q.id = r.id
    · obtain rfl := Directory.eq_of_id hq (Directory.mem_of_get? hr) hid
      exact (if_pos rfl).trans (if_pos hreach).symm
    · exact (if_neg hid).trans (if_neg fun hq => hid (hq.id_eq hreach)).symm

/-- A deletion under way has touched what it has changed, the registry of the
deletion first. -/
structure Tells (d : Directory) (first : String) (x : Deletion) : Prop where
  nodup : x.touched.Nodup
  changed : ∀ id, id ∈ x.touched ↔ x.directory.contents id ≠ d.contents id
  head : first ∈ x.touched → x.touched.head? = some first

theorem tells_start (d : Directory) (first : String) : Tells d first (start d) :=
  ⟨.nil, fun _ => ⟨nofun, fun h => absurd rfl h⟩, nofun⟩

theorem Tells.put (h : Tells d first x) {r : Registry} {f : Store (Element r.kind) → Store (Element r.kind)}
    {lost : Bool} (hr : x.directory.get? r.id = some r) (hnew : r.id ∉ x.touched)
    (hfirst : r.id = first → x.touched = [])
    (hlost : lost = true ↔ Registry.untyped (f r.store).toList ≠ r.entries) :
    Tells d first (x.put (r.transact f) lost) := by
  have hcontents : ∀ id, (x.put (r.transact f) lost).directory.contents id =
      if r.id = id then Registry.untyped (f r.store).toList else x.directory.contents id :=
    Directory.contents_set_transact hr
  have hbefore : d.contents r.id = r.entries := by
    have hsame := not_not.1 (mt (h.changed r.id).2 hnew)
    rw [← hsame, Directory.contents_of_get? hr]
  have hself : lost = true ↔ (x.put (r.transact f) lost).directory.contents r.id ≠ d.contents r.id := by
    rw [hcontents, if_pos rfl, hbefore, hlost]
  have hother : ∀ id, r.id ≠ id → (id ∈ x.touched ↔
      (x.put (r.transact f) lost).directory.contents id ≠ d.contents id) := by
    intro id hid
    rw [hcontents, if_neg hid]
    exact h.changed id
  cases lost with
  | false =>
    refine ⟨h.nodup, fun id => ?_, h.head⟩
    by_cases hid : r.id = id
    · subst hid
      exact ⟨fun hmem => absurd hmem hnew, fun hne => absurd (hself.2 hne) Bool.false_ne_true⟩
    · exact hother id hid
  | true =>
    have htouched : (x.put (r.transact f) true).touched = x.touched ++ [r.id] := rfl
    refine ⟨?_, fun id => ?_, fun hmem => ?_⟩
    · rw [htouched, List.nodup_append]
      refine ⟨h.nodup, List.nodup_singleton _, fun a ha b hb => ?_⟩
      rw [List.mem_singleton.1 hb]
      exact fun hab => hnew (hab ▸ ha)
    · rw [htouched, List.mem_append, List.mem_singleton]
      by_cases hid : r.id = id
      · subst hid
        exact ⟨fun _ => hself.1 rfl, fun _ => .inr rfl⟩
      · rw [← hother id hid]
        exact or_iff_left fun heq => hid heq.symm
    · rw [htouched] at hmem ⊢
      by_cases hid : r.id = first
      · rw [hfirst hid, hid]
        rfl
      · have hold : first ∈ x.touched := by
          rcases List.mem_append.1 hmem with hold | hlast
          · exact hold
          · exact absurd (List.mem_singleton.1 hlast).symm hid
        rw [List.head?_append, h.head hold]
        rfl

theorem Through.tells {y : Deletion} (h : Through x c y) (hx : Tells d first x)
    (hnew : ∀ r ∈ x.directory.registries, c.Reaches r.view → r.id ∉ x.touched ∧ r.id ≠ first) : Tells d first y := by
  cases h with
  | nowhere => exact hx
  | @put r f lost hr hreach hleaves hlost =>
    obtain ⟨hmem, hid⟩ := hnew r (Directory.mem_of_get? hr) hreach
    exact hx.put hr hmem (fun heq => absurd heq hid) (by rw [hleaves, hlost])

end Deletion

namespace Directory

variable {d : Directory} {r : Registry} {registryId : String}

theorem delete_eq (hr : d.get? registryId = some r) (entityId : String) :
    d.delete registryId entityId = .ok (((Deletion.start d).evict r entityId).through (r.view.cascade entityId)) := by
  rw [delete, require_eq_ok_iff.2 hr]
  refine congrArg Except.ok ?_
  have hkind : r.view.kind = r.kind := rfl
  rw [Registry.View.cascade, hkind, Registry.category?_view]
  cases r.kind with
  | category => cases r.category? entityId <;> rfl
  | order | menu | menuOption | optionGroup => rfl

/-- Only the registry that the cascade reaches has to own its ids. -/
theorem delete_left (hr : d.get? registryId = some r) (entityId : String)
    (h : ∀ q ∈ d.registries, (r.view.cascade entityId).Reaches q.view → q.Own) :
    ∃ x, d.delete registryId entityId = .ok x ∧ x.directory.views = d.views.map (Registry.View.left r.view entityId) ∧
      x.Tells d registryId := by
  have hget := get?_self hr
  have hmem := mem_of_get? hr
  have hid := id_of_get? hr
  obtain ⟨x, hx⟩ : ∃ x, (Deletion.start d).evict r entityId = x := ⟨_, rfl⟩
  have hviews : x.directory.views =
      d.views.map fun v => if v.id = r.id then v.transact (Entries.remove entityId) else v := by
    rw [← hx]
    exact views_set_transact (f := fun store => store.erase entityId) hget (r.entries_evict entityId)
  have hown : ∀ q ∈ x.directory.registries, (r.view.cascade entityId).Reaches q.view → q.Own := by
    rw [← hx]
    intro q hq hreach
    have hkeeps := ((Deletion.from_start d).evict hget entityId).rewrites.toKeeps
    refine hkeeps.own hq fun q' hq' hid hkind hpolicy => h q' hq' ?_
    exact hreach.congr hid.symm hkind.symm hpolicy.symm
  have htells : x.Tells d registryId := by
    rw [← hx]
    refine (Deletion.tells_start d registryId).put (f := fun store => store.erase entityId) hget List.not_mem_nil
      (fun _ => rfl) ?_
    rw [r.entries_evict entityId]
    exact r.has_iff_changed entityId
  have htouched : ∀ id ∈ x.touched, id = r.id := by
    rw [← hx]
    intro id hid
    simp only [Deletion.evict, Deletion.put, Deletion.start, List.nil_append] at hid
    split at hid
    · exact List.mem_singleton.1 hid
    · cases hid
  have hthrough := Deletion.through_spec (r.view.cascade entityId) hown
  refine ⟨_, hx ▸ delete_eq hr entityId, ?_, ?_⟩
  · rw [hthrough.views, hviews, List.map_map]
    refine List.map_congr_left fun v hv => ?_
    obtain ⟨q, hq, rfl⟩ := List.mem_map.1 hv
    simp only [Function.comp_apply, Registry.View.left]
    by_cases hqr : q.view.id = r.view.id
    · obtain rfl := eq_of_id hq hmem hqr
      refine (congrArg _ (if_pos rfl)).trans (Eq.trans ?_ (if_pos rfl).symm)
      rw [Registry.View.reached, if_neg]
      exact fun hreach => Registry.Cascade.kind_ne_of_reaches hreach rfl
    · exact (congrArg _ (if_neg hqr)).trans (if_neg hqr).symm
  · refine hthrough.tells htells fun q hq hreach => ?_
    have hne : q.id ≠ r.id := by
      intro heq
      have hevicted : x.directory.get? r.id = some (r.evict entityId) := by
        rw [← hx]
        exact (get?_set_transact (f := fun store => store.erase entityId) hget r.id).trans (if_pos rfl)
      obtain rfl := eq_of_id hq (mem_of_get? hevicted) heq
      exact Registry.Cascade.kind_ne_of_reaches hreach rfl
    exact ⟨fun hq => hne (htouched _ hq), hid ▸ hne⟩

theorem delete_spec (h : ∀ r ∈ d.registries, r.Own) (hr : d.get? registryId = some r) (entityId : String) :
    ∃ x, d.delete registryId entityId = .ok x ∧ x.directory.views = d.views.map (Registry.View.left r.view entityId) ∧
      x.Tells d registryId :=
  delete_left hr entityId fun q hq _ => h q hq

/-- **Deletion.** Every registry is left with what `left` says, slot by slot,
and the deletion names the registries whose contents it changed, its own first. -/
theorem delete_exact (h : ∀ r ∈ d.registries, r.Own) (hr : d.get? registryId = some r) (entityId : String) :
    ∃ x, d.delete registryId entityId = .ok x ∧
      x.directory.views = d.views.map (Registry.View.left r.view entityId) ∧
      x.touched.Nodup ∧
      (∀ id, id ∈ x.touched ↔ x.directory.contents id ≠ d.contents id) ∧
      (registryId ∈ x.touched → x.touched.head? = some registryId) := by
  obtain ⟨x, hx, hviews, htells⟩ := delete_spec h hr entityId
  exact ⟨x, hx, hviews, htells.nodup, htells.changed, htells.head⟩

def latte : Menu := ⟨"latte", "Latte", 4500, "drinks", "", "", []⟩

def tea : Menu := ⟨"tea", "Tea", 4000, "drinks", "", "", []⟩

/-- A category that lists a menu twice. -/
def drinks : Category := ⟨"drinks", "Drinks", [latte, tea, latte]⟩

def filled (id : String) {kind : EntityKind} (es : List (Element kind)) : Registry :=
  (Registry.empty id kind .replaceById fun h => Policy.noConfusion h).replaceAll es

def counter : Directory where
  registries :=
    [filled RegistryId.menus [.ofMenu latte, .ofMenu tea], filled RegistryId.categories [.ofCategory drinks]]
  ids_nodup := by decide
  all_not_mem := by decide

theorem own_counter : ∀ r ∈ counter.registries, r.Own := by
  intro r hr
  simp only [counter, List.mem_cons, List.not_mem_nil, or_false] at hr
  rcases hr with rfl | rfl <;> exact Registry.own_replaceAll _ _

theorem view_filled (id : String) {kind : EntityKind} (es : List (Element kind)) :
    (filled id es).view =
      ⟨id, kind, .replaceById, true, Registry.untyped (Registry.Listing.fileAll .replaceById [] es)⟩ := by
  show Registry.View.mk id kind .replaceById true (Registry.untyped (Registry.fileAll .replaceById .empty es).toList) = _
  rw [Registry.toList_fileAll]
  rfl

theorem views_counter :
    counter.views =
      [⟨RegistryId.menus, .menu, .replaceById, true, [("latte", .menu latte), ("tea", .menu tea)]⟩,
        ⟨RegistryId.categories, .category, .replaceById, true, [("drinks", .category drinks)]⟩] := by
  show [(filled _ _).view, (filled _ _).view] = _
  rw [view_filled, view_filled]
  decide

/-- Deleting the menu leaves the category with the other one. -/
theorem delete_exact_listed :
    (∀ r ∈ counter.registries, r.Own) ∧ ∃ x, counter.delete RegistryId.menus "latte" = .ok x ∧
      x.directory.views =
        [⟨RegistryId.menus, .menu, .replaceById, true, [("tea", .menu tea)]⟩,
          ⟨RegistryId.categories, .category, .replaceById, true,
            [("drinks", .category ⟨"drinks", "Drinks", [tea]⟩)]⟩] := by
  have hr : counter.get? RegistryId.menus = some (filled RegistryId.menus [.ofMenu latte, .ofMenu tea]) := rfl
  obtain ⟨x, hx, hviews, -⟩ := delete_exact own_counter hr "latte"
  refine ⟨own_counter, x, hx, hviews.trans ?_⟩
  rw [views_counter, view_filled]
  decide

end Directory

end OrderDesk
