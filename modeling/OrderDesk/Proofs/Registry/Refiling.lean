import OrderDesk.Proofs.Registry.Built
import OrderDesk.Proofs.Registry.Deletion

/-!
# What a deletion files anew

The deletion of a menu files every category that lists it again, under the
category's own id and not under the id that it has in the registry. Where the
two differ an id comes up that was not there before. Nothing else that a
deletion does brings up an id.
-/

namespace OrderDesk

/-! ## Ids that filing brings up -/

namespace Entries

variable {kind : EntityKind} {l : List (String × Element kind)} {id : String}

/-- An id under which an entity of that very id is filed. -/
def Holds (l : List (String × Element kind)) (id : String) : Prop := ∃ e, (id, e) ∈ l ∧ e.id = id

theorem Holds.mem_ids (h : Holds l id) : id ∈ ids l := h.elim fun e he => Entries.mem_ids.2 ⟨e, he.1⟩

-- an entity with another id has another value, so it does not push the holder out
theorem Holds.file (h : Holds l id) (e : Element kind) : Holds (Entries.file e.id e l) id := by
  obtain ⟨a, ha, rfl⟩ := h
  by_cases hid : e.id = a.id
  · exact ⟨e, mem_file.2 (.inl (by rw [hid])), hid⟩
  · exact ⟨a, mem_file.2 (.inr ⟨ha, Ne.symm hid, fun heq => hid (heq ▸ rfl)⟩), rfl⟩

theorem mem_ids_of_mem_file {e : Element kind} (h : id ∈ ids (Entries.file e.id e l)) : id ∈ ids l ∨ e.id = id := by
  obtain ⟨a, ha⟩ := mem_ids.1 h
  rcases mem_file.1 ha with heq | ⟨ha, -⟩
  · exact .inr (congrArg (·.1) heq).symm
  · exact .inl (mem_ids_of_mem ha)

theorem Holds.fileAll (h : Holds l id) (policy : Policy) (es : List (Element kind)) :
    Holds (Registry.Listing.fileAll policy l es) id := by
  induction es generalizing l with
  | nil => exact h
  | cons e es ih =>
    refine ih ?_
    show Holds (Registry.Listing.file policy l e.id e) id
    rw [Registry.Listing.file, fileUnder_own]
    exact h.file e

theorem mem_ids_fileAll (policy : Policy) (es : List (Element kind)) (hnew : id ∉ ids l) :
    id ∈ ids (Registry.Listing.fileAll policy l es) ↔ ∃ e ∈ es, e.id = id := by
  induction es generalizing l with
  | nil => exact iff_of_false hnew (by simp)
  | cons e es ih =>
    rw [Registry.Listing.fileAll, List.foldl_cons, Registry.Listing.file, fileUnder_own]
    by_cases hid : e.id = id
    · have hholds : Holds (Entries.file e.id e l) id := ⟨e, mem_file.2 (.inl (by rw [hid])), hid⟩
      exact iff_of_true (hholds.fileAll policy es).mem_ids ⟨e, List.mem_cons_self, hid⟩
    · have hnew' : id ∉ ids (Entries.file e.id e l) := fun hmem => (mem_ids_of_mem_file hmem).elim hnew hid
      exact (ih hnew').trans (by simp [hid])

end Entries

/-! ## Stripped categories -/

namespace Registry

variable {r : Registry} {menuId id : String}

theorem exists_withoutMenu?_iff {kind : EntityKind} {e : Element kind} :
    (∃ e', e.withoutMenu? menuId = some e') ↔ ∃ c, e.entity = .category c ∧ c.lists menuId := by
  cases kind with
  | category =>
    have hcategory := e.entity_category
    rw [Element.withoutMenu?_category, Category.withoutMenu]
    split
    · next hlists => exact iff_of_true ⟨_, rfl⟩ ⟨_, hcategory, hlists⟩
    · next hlists =>
      refine iff_of_false (by simp) ?_
      rintro ⟨c, hc, hc'⟩
      obtain rfl := Entity.category.inj (hcategory.symm.trans hc)
      exact hlists hc'
  | order | menu | menuOption | optionGroup =>
    constructor
    · rintro ⟨e', he⟩
      cases he
    · rintro ⟨c, hc, -⟩
      cases (congrArg Entity.kind hc).symm.trans e.property

/-- Some category is filed under its own id once a menu is stripped off. -/
theorem exists_stripped_iff :
    (∃ e ∈ stripped r.store menuId, e.id = id) ↔
      ∃ filed c, (filed, .category c) ∈ r.entries ∧ c.lists menuId ∧ c.id = id := by
  have hid : ∀ {p : String × Element r.kind} {c : Category}, p.2.entity = .category c → p.2.id = c.id :=
    fun hc => congrArg Entity.elementId hc
  rw [stripped, Store.values_eq]
  constructor
  · rintro ⟨e, he, rfl⟩
    obtain ⟨a, ha, hstrip⟩ := List.mem_filterMap.1 he
    obtain ⟨p, hp, rfl⟩ := List.mem_map.1 ha
    obtain ⟨c, hc, hlists⟩ := exists_withoutMenu?_iff.1 ⟨e, hstrip⟩
    refine ⟨p.1, c, ?_, hlists, (hid hc).symm.trans (Element.id_of_withoutMenu? hstrip).1.symm⟩
    rw [← hc]
    exact List.mem_map_of_mem hp
  · rintro ⟨filed, c, hmem, hlists, rfl⟩
    obtain ⟨p, hp, heq⟩ := List.mem_map.1 hmem
    have hc : p.2.entity = .category c := congrArg (·.2) heq
    obtain ⟨e, he⟩ := exists_withoutMenu?_iff.2 ⟨c, hc, hlists⟩
    exact ⟨e, List.mem_filterMap.2 ⟨p.2, List.mem_map_of_mem hp, he⟩, (Element.id_of_withoutMenu? he).1.trans (hid hc)⟩

end Registry

/-! ## Directories -/

namespace Directory

variable {d : Directory} {r : Registry} {f : Store (Element r.kind) → Store (Element r.kind)}

theorem files_set_transact {q id : String} (hr : d.get? r.id = some r) :
    (d.set (r.transact f)).Files q id ↔ if r.id = q then id ∈ Entries.ids (f r.store).toList else d.Files q id := by
  rw [Files, contents_set_transact hr]
  split
  · rw [Registry.ids_untyped]
  · rfl

theorem files_of_files_set_transact {q id : String} (hr : d.get? r.id = some r)
    (hf : (f r.store).toList.Sublist r.store.toList) (h : (d.set (r.transact f)).Files q id) : d.Files q id := by
  rw [files_set_transact hr] at h
  split at h
  · next hid => exact (files_iff (hid ▸ hr)).2 ((hf.map _).subset h)
  · exact h

theorem typed?_set_transact {id : String} {kind : EntityKind} {policy : Policy} (hr : d.get? r.id = some r)
    (hkind : r.kind ≠ kind) : (d.set (r.transact f)).typed? id kind policy = d.typed? id kind policy := by
  have hother : ∀ q : Registry, q.kind = r.kind →
      (some q).filter (fun r => r.kind = kind && r.policy = policy) = none := by
    intro q hq
    simp [hq, hkind]
  rw [typed?, typed?, get?_set_transact hr]
  split
  · next hid => rw [← hid, hr, hother r rfl, hother (r.transact f) rfl]
  · rfl

end Directory

namespace Deletion

variable {x : Deletion} {q id : String}

theorem files_of_files_evict {r : Registry} (hr : x.directory.get? r.id = some r) {entityId : String}
    (h : (x.evict r entityId).directory.Files q id) : x.directory.Files q id := by
  refine Directory.files_of_files_set_transact (f := fun store => store.erase entityId) hr ?_ h
  rw [Store.toList_erase]
  exact List.filter_sublist

theorem files_of_files_dropMenusOf {category : Category} (h : (x.dropMenusOf category).directory.Files q id) :
    x.directory.Files q id := by
  unfold dropMenusOf at h
  split at h
  · exact h
  · next r hr =>
    refine Directory.files_of_files_set_transact (Directory.get?_self (Directory.typed?_eq_some_iff.1 hr).1) ?_ h
    rw [Registry.toList_foldl_erase, Entries.foldl_remove]
    exact List.filter_sublist

theorem files_stripMenu_iff {menuId : String} (hnew : ¬x.directory.Files q id) :
    (x.stripMenu menuId).directory.Files q id ↔
      ∃ r, x.directory.categories? = some r ∧ r.id = q ∧
        ∃ filed c, (filed, .category c) ∈ r.entries ∧ c.lists menuId ∧ c.id = id := by
  unfold stripMenu
  split
  · next hnone =>
    refine iff_of_false hnew ?_
    rintro ⟨r, hr, -⟩
    cases hnone.symm.trans hr
  · next r hr =>
    have hget := Directory.get?_self (Directory.typed?_eq_some_iff.1 hr).1
    have hsome : ∀ s, x.directory.categories? = some s ↔ r = s := fun s => by rw [hr, Option.some_inj]
    simp only [hsome, exists_eq_left']
    refine (Directory.files_set_transact
      (f := fun store => Registry.fileAll r.policy store (Registry.stripped store menuId)) hget).trans ?_
    by_cases hq : r.id = q
    · subst hq
      rw [Directory.files_iff hget] at hnew
      rw [if_pos rfl, Registry.toList_fileAll, Entries.mem_ids_fileAll _ _ hnew, Registry.exists_stripped_iff]
      exact (and_iff_right rfl).symm
    · rw [if_neg hq]
      exact iff_of_false hnew fun h => hq h.1

end Deletion

namespace Directory

variable {d : Directory} {x : Deletion} {registryId entityId q id : String}

/-- A stored category lists the menu and has the id as its own. -/
def Refiles (d : Directory) (menuId id : String) : Prop :=
  ∃ r, d.categories? = some r ∧ ∃ filed c, (filed, .category c) ∈ r.entries ∧ c.lists menuId ∧ c.id = id

theorem exists_of_delete (h : d.delete registryId entityId = .ok x) :
    ∃ r, d.get? registryId = some r ∧
      x = ((Deletion.start d).evict r entityId).through (r.view.cascade entityId) := by
  cases hr : d.require registryId with
  | error e =>
    rw [delete, hr] at h
    cases h
  | ok r =>
    have hget := require_eq_ok_iff.1 hr
    exact ⟨r, hget, Except.ok.inj (h.symm.trans (delete_eq hget entityId))⟩

theorem delete_files_iff (h : d.delete registryId entityId = .ok x) (hnew : ¬d.Files q id) :
    x.directory.Files q id ↔
      q = RegistryId.categories ∧ (∃ r, d.get? registryId = some r ∧ r.kind = .menu) ∧ d.Refiles entityId id := by
  obtain ⟨r, hr, rfl⟩ := exists_of_delete h
  have hget := get?_self hr
  have hevict : ¬((Deletion.start d).evict r entityId).directory.Files q id :=
    fun hfiles => hnew (Deletion.files_of_files_evict (x := .start d) hget hfiles)
  have hviewkind : r.view.kind = r.kind := rfl
  have hother : r.kind ≠ .menu → ¬∃ r, d.get? registryId = some r ∧ r.kind = .menu := by
    rintro hne ⟨r', hr', hmenu⟩
    obtain rfl := Option.some.inj (hr.symm.trans hr')
    exact hne hmenu
  rw [Registry.View.cascade, hviewkind]
  cases hkind : r.kind with
  | menu =>
    have hcategories : ((Deletion.start d).evict r entityId).directory.categories? = d.categories? :=
      typed?_set_transact (f := fun store => store.erase entityId) hget (by simp [hkind])
    refine (Deletion.files_stripMenu_iff hevict).trans ?_
    rw [hcategories, Refiles]
    constructor
    · rintro ⟨s, hs, rfl, hstrip⟩
      exact ⟨id_of_get? (typed?_eq_some_iff.1 hs).1, ⟨r, hr, hkind⟩, s, hs, hstrip⟩
    · rintro ⟨rfl, -, s, hs, hstrip⟩
      exact ⟨s, hs, id_of_get? (typed?_eq_some_iff.1 hs).1, hstrip⟩
  | category =>
    refine iff_of_false (fun hfiles => hevict ?_) fun hr => hother (by simp [hkind]) hr.2.1
    cases hcategory : r.view.category? entityId with
    | none => simpa [hcategory, Deletion.through] using hfiles
    | some category =>
      simp only [hcategory, Option.elim_some] at hfiles
      exact Deletion.files_of_files_dropMenusOf hfiles
  | order | menuOption | optionGroup => exact iff_of_false hevict fun hr => hother (by simp [hkind]) hr.2.1

/-- **No new entry.** What a deletion files under an id that was not there is a
stripped category under its own id. So it files nothing anew where every
category is filed under its own id. -/
theorem delete_files (h : d.delete registryId entityId = .ok x) :
    (∀ q id, ¬d.Files q id → (x.directory.Files q id ↔
      q = RegistryId.categories ∧ (∃ r, d.get? registryId = some r ∧ r.kind = .menu) ∧ d.Refiles entityId id)) ∧
    (d.Owns RegistryId.categories → ∀ q id, x.directory.Files q id → d.Files q id) := by
  refine ⟨fun q id hnew => delete_files_iff h hnew, fun hown q id hfiles => ?_⟩
  refine Classical.byContradiction fun hnew => ?_
  obtain ⟨rfl, -, r, hr, filed, c, hmem, -, rfl⟩ := (delete_files_iff h hnew).1 hfiles
  have hget := (typed?_eq_some_iff.1 hr).1
  refine hnew ?_
  rw [Files, contents_of_get? hget, ← show filed = c.id from (hown r hget).id_of_mem_entries hmem]
  exact Entries.mem_ids_of_mem hmem

/-! ## A category under a foreign id -/

def lattes : Category := ⟨"drinks", "Drinks", [latte]⟩

def emptyMenus : Registry := .empty RegistryId.menus .menu .replaceById fun h => Policy.noConfusion h

def emptyCategories : Registry := .empty RegistryId.categories .category .replaceById fun h => Policy.noConfusion h

def stockedMenus : Registry := emptyMenus.after (.upsert (.ofMenu latte))

def shelvedCategories : Registry := emptyCategories.after (.direct (.add "shelf" (.ofCategory lattes)))

/-- The menu is filed under its id, the category that lists it is not. -/
def shelved : Directory := (standard.set stockedMenus).set shelvedCategories

theorem get?_emptyMenus : standard.get? RegistryId.menus = some emptyMenus := rfl

theorem get?_emptyCategories : (standard.set stockedMenus).get? RegistryId.categories = some emptyCategories :=
  get?_set (r := stockedMenus) get?_emptyMenus RegistryId.categories

theorem built_shelved : shelved.Built :=
  (built_standard.edit (.change (r := emptyMenus) get?_emptyMenus (.upsert (.ofMenu latte)))).edit
    (.change (r := emptyCategories) get?_emptyCategories (.direct (.add "shelf" (.ofCategory lattes))))

theorem get?_shelved_categories : shelved.get? RegistryId.categories = some shelvedCategories :=
  (get?_set (r := shelvedCategories) get?_emptyCategories _).trans (if_pos rfl)

theorem get?_shelved_menus : shelved.get? RegistryId.menus = some stockedMenus :=
  (get?_set (r := shelvedCategories) get?_emptyCategories RegistryId.menus).trans
    (get?_set (r := stockedMenus) get?_emptyMenus RegistryId.menus)

theorem contents_shelved : shelved.contents RegistryId.categories = [("shelf", .category lattes)] := by
  rw [contents_of_get? get?_shelved_categories]
  show Registry.untyped (Registry.file .replaceById .empty "shelf" (.ofCategory lattes)).toList = _
  rw [Registry.toList_file, Store.toList_empty]
  rfl

theorem refiles_shelved {id : String} : shelved.Refiles "latte" id ↔ id = "drinks" := by
  have hcategories : shelved.categories? = some shelvedCategories :=
    typed?_eq_some_iff.2 ⟨get?_shelved_categories, rfl, rfl⟩
  constructor
  · rintro ⟨r, hr, filed, c, hmem, -, rfl⟩
    obtain rfl := Option.some.inj (hcategories.symm.trans hr)
    rw [← contents_of_get? get?_shelved_categories, contents_shelved, List.mem_singleton] at hmem
    cases hmem
    rfl
  · rintro rfl
    refine ⟨_, hcategories, "shelf", lattes, ?_, by decide, rfl⟩
    rw [← contents_of_get? get?_shelved_categories, contents_shelved]
    exact List.mem_singleton_self _

/-- The stripped category comes up beside the one that still lists the menu. -/
theorem delete_files_shelved :
    ∃ x, shelved.delete RegistryId.menus "latte" = .ok x ∧ ∀ q id, ¬shelved.Files q id →
      (x.directory.Files q id ↔ q = RegistryId.categories ∧ id = "drinks") := by
  refine ⟨_, delete_eq get?_shelved_menus "latte", fun q id hnew => ?_⟩
  refine ((delete_files (delete_eq get?_shelved_menus "latte")).1 q id hnew).trans ?_
  rw [refiles_shelved]
  exact and_congr_right fun _ => and_iff_right ⟨_, get?_shelved_menus, rfl⟩

theorem delete_adds_entry :
    shelved.Built ∧ ∃ x, shelved.delete RegistryId.menus "latte" = .ok x ∧
      x.directory.Files RegistryId.categories "drinks" ∧ ¬shelved.Files RegistryId.categories "drinks" := by
  have hnew : ¬shelved.Files RegistryId.categories "drinks" := by
    rw [Files, contents_shelved]
    decide
  refine ⟨built_shelved, _, delete_eq get?_shelved_menus "latte", ?_, hnew⟩
  refine (delete_files_iff (delete_eq get?_shelved_menus "latte") hnew).2 ⟨rfl, ⟨_, get?_shelved_menus, rfl⟩, ?_⟩
  exact refiles_shelved.2 rfl

end Directory

end OrderDesk
