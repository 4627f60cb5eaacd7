import OrderDesk.Proofs.Registry.Deletion

/-!
# What stays listed after a deletion

A category refers to the menus that it lists. A menu that is deleted is taken
out of all of them. A category that is deleted takes its menus along, and
nobody takes those out of the other categories that list them.
-/

namespace OrderDesk

namespace Registry

theorem mem_entries_iff {r : Registry} {id : String} {x : Entity} :
    (id, x) ∈ r.entries ↔ ∃ e, r.get? id = some e ∧ e.entity = x := by
  constructor
  · intro h
    obtain ⟨p, hp, heq⟩ := List.mem_map.1 h
    cases heq
    exact ⟨p.2, r.store.get?_eq_some_iff.2 hp, rfl⟩
  · rintro ⟨e, he, rfl⟩
    exact List.mem_map_of_mem (r.store.get?_eq_some_iff.1 he)

theorem category?_eq_some_iff {r : Registry} {id : String} {c : Category} :
    r.category? id = some c ↔ (id, .category c) ∈ r.entries := by
  rw [category?, Option.bind_eq_some_iff, mem_entries_iff]
  refine exists_congr fun e => and_congr_right fun _ => ?_
  cases e.entity <;> simp

theorem eq_of_mem_entries {r : Registry} {id : String} {x y : Entity} (hx : (id, x) ∈ r.entries)
    (hy : (id, y) ∈ r.entries) : x = y := by
  obtain ⟨e, he, rfl⟩ := mem_entries_iff.1 hx
  obtain ⟨e', he', rfl⟩ := mem_entries_iff.1 hy
  obtain rfl := Option.some.inj (he.symm.trans he')
  rfl

theorem exists_menu_of {x : Entity} {category : Category} (h : x.Of category) : ∃ m, x = .menu m := by
  cases x with
  | menu m => exact ⟨m, rfl⟩
  | order | category | menuOption | optionGroup => cases h

/-- What goes with a category, if one goes. -/
theorem not_mem_ids_leaves_iff {r : Registry} {id : String} (hid : id ∈ Entries.ids r.entries)
    (gone? : Option Category) : id ∉ Entries.ids ((gone?.elim .none .drop : Cascade).leaves r.entries) ↔
      ∃ gone, gone? = some gone ∧ ∃ x, (id, x) ∈ r.entries ∧ x.Of gone := by
  cases gone? with
  | none =>
    refine iff_of_false (not_not.2 hid) ?_
    rintro ⟨gone, ⟨⟩, -⟩
  | some gone =>
    obtain ⟨x, hx⟩ := Entries.mem_ids.1 hid
    -- nothing else is filed under the id, so it goes with this one entity
    have hmem : id ∈ Entries.ids ((Cascade.drop gone).leaves r.entries) ↔ ¬x.Of gone := by
      rw [Entries.mem_ids]
      constructor
      · rintro ⟨y, hy⟩
        obtain ⟨hy, hstays⟩ := List.mem_filter.1 hy
        obtain rfl := eq_of_mem_entries hx hy
        exact of_decide_eq_true hstays
      · exact fun hof => ⟨x, List.mem_filter.2 ⟨hx, decide_eq_true hof⟩⟩
    refine (not_congr hmem).trans (not_not.trans ?_)
    constructor
    · exact fun hof => ⟨gone, rfl, x, hx, hof⟩
    · rintro ⟨_, ⟨⟩, y, hy, hof⟩
      exact eq_of_mem_entries hx hy ▸ hof

namespace View

theorem id_left (owner v : View) (id : String) : (left owner id v).id = v.id := by
  unfold left reached
  split
  · rfl
  · split <;> rfl

theorem entries_left_self (owner : View) (id : String) :
    (left owner id owner).entries = Entries.remove id owner.entries :=
  congrArg entries (if_pos rfl)

theorem entries_left_of_ne {owner v : View} {id : String} (hid : v.id ≠ owner.id)
    (h : owner.cascade id = .none ∨ (owner.cascade id).Reaches v) :
    (left owner id v).entries = (owner.cascade id).leaves v.entries := by
  rw [left, if_neg hid]
  rcases h with hnone | hreach
  · rw [hnone]
    exact congrArg entries (if_neg not_false)
  · exact congrArg entries (if_pos hreach)

end View

end Registry

namespace Directory

variable {d d' : Directory} {menus categories : Registry} {registryId entityId menuId : String} {c : Category}

theorem contents_left {owner : Registry.View} {id q : String} {r : Registry}
    (hviews : d'.views = d.views.map (Registry.View.left owner id)) (hr : d.get? q = some r) :
    d'.contents q = (Registry.View.left owner id r.view).entries := by
  have hmem : Registry.View.left owner id r.view ∈ d'.views := by
    rw [hviews]
    exact List.mem_map_of_mem (List.mem_map_of_mem (mem_of_get? hr))
  obtain ⟨r', hr', hview⟩ := List.mem_map.1 hmem
  have hid : r'.id = q :=
    (congrArg Registry.View.id hview).trans ((Registry.View.id_left owner r.view id).trans (id_of_get? hr))
  rw [contents_of_get? (hid ▸ get?_of_mem hr'), ← hview]
  rfl

/-! ## What the cascade leaves -/

theorem delete_contents {r r' : Registry} {q : String} (hr : d.get? registryId = some r) (hq : d.get? q = some r')
    (hne : q ≠ registryId) (hown : r'.Own)
    (hreach : r.view.cascade entityId = .none ∨ (r.view.cascade entityId).Reaches r'.view) :
    ∃ x, d.delete registryId entityId = .ok x ∧
      x.directory.contents registryId = Entries.remove entityId (d.contents registryId) ∧
      x.directory.contents q = (r.view.cascade entityId).leaves (d.contents q) := by
  have hid : r'.view.id ≠ r.view.id := by
    show r'.id ≠ r.id
    rwa [id_of_get? hq, id_of_get? hr]
  obtain ⟨x, hx, hviews, -⟩ := delete_left hr entityId fun q' hq' hreach' => by
    rcases hreach with hnone | hreach
    · rw [hnone] at hreach'
      cases hreach'
    · obtain rfl := eq_of_id hq' (mem_of_get? hq) (hreach'.id_eq hreach)
      exact hown
  refine ⟨x, hx, ?_, ?_⟩
  · rw [contents_left hviews hr, contents_of_get? hr]
    exact Registry.View.entries_left_self r.view entityId
  · rw [contents_left hviews hq, contents_of_get? hq]
    exact Registry.View.entries_left_of_ne hid hreach

theorem delete_menu_contents (hmenus : d.menus? = some menus) (hcategories : d.categories? = some categories)
    (hown : categories.Own) (entityId : String) :
    ∃ x, d.delete RegistryId.menus entityId = .ok x ∧
      x.directory.contents RegistryId.menus = Entries.remove entityId (d.contents RegistryId.menus) ∧
      x.directory.contents RegistryId.categories =
        (Registry.Cascade.strip entityId).leaves (d.contents RegistryId.categories) := by
  obtain ⟨hr, hkind, -⟩ := typed?_eq_some_iff.1 hmenus
  obtain ⟨hq, hstandard⟩ := typed?_eq_some_iff.1 hcategories
  have hcascade : menus.view.cascade entityId = .strip entityId := by
    rw [Registry.View.cascade, show menus.view.kind = .menu from hkind]
  rw [← hcascade]
  refine delete_contents hr hq (by decide) hown (.inr ?_)
  rw [hcascade]
  exact ⟨id_of_get? hq, hstandard⟩

theorem delete_category_contents (hmenus : d.menus? = some menus) (hcategories : d.categories? = some categories)
    (hown : menus.Own) (entityId : String) :
    ∃ x, d.delete RegistryId.categories entityId = .ok x ∧
      x.directory.contents RegistryId.categories = Entries.remove entityId (d.contents RegistryId.categories) ∧
      x.directory.contents RegistryId.menus =
        ((categories.category? entityId).elim .none .drop : Registry.Cascade).leaves (d.contents RegistryId.menus) := by
  obtain ⟨hr, hkind, -⟩ := typed?_eq_some_iff.1 hcategories
  obtain ⟨hq, hstandard⟩ := typed?_eq_some_iff.1 hmenus
  have hcascade : categories.view.cascade entityId = (categories.category? entityId).elim .none .drop := by
    rw [Registry.View.cascade, show categories.view.kind = .category from hkind, Registry.category?_view]
  rw [← hcascade]
  refine delete_contents hr hq (by decide) hown ?_
  rw [hcascade]
  cases categories.category? entityId with
  | none => exact .inl rfl
  | some gone => exact .inr ⟨id_of_get? hq, hstandard⟩

/-! ## Listed menus -/

/-- An entity is filed in a registry, under whatever id. -/
def Stores (d : Directory) (registryId : String) (x : Entity) : Prop := ∃ id, (id, x) ∈ d.contents registryId

theorem stores_iff {r : Registry} {q : String} (hr : d.get? q = some r) (hown : r.Own) (x : Entity) :
    d.Stores q x ↔ (x.elementId, x) ∈ r.entries := by
  rw [Stores, contents_of_get? hr]
  constructor
  · rintro ⟨id, hmem⟩
    exact (show id = x.elementId from hown.id_of_mem_entries hmem) ▸ hmem
  · exact fun hmem => ⟨_, hmem⟩

theorem stores_removed_iff {r : Registry} {q : String} (hr : d.get? q = some r) (hown : r.Own)
    (hremoved : d'.contents q = Entries.remove entityId (d.contents q)) (x : Entity) :
    d'.Stores q x ↔ d.Stores q x ∧ x.elementId ≠ entityId := by
  rw [stores_iff hr hown, Stores, hremoved, contents_of_get? hr]
  constructor
  · rintro ⟨id, hmem⟩
    obtain ⟨hmem, hne⟩ := Entries.mem_remove.1 hmem
    obtain rfl : id = x.elementId := hown.id_of_mem_entries hmem
    exact ⟨hmem, hne⟩
  · exact fun hmem => ⟨x.elementId, Entries.mem_remove.2 hmem⟩

/-- A stored category lists a menu that is not there. -/
def Dangles (d : Directory) (c : Category) (menuId : String) : Prop :=
  d.Stores RegistryId.categories (.category c) ∧ c.lists menuId ∧ ¬d.Files RegistryId.menus menuId

/-- Menus and categories are filed under their own ids, and every menu that is
listed is there. -/
structure Whole (d : Directory) : Prop where
  menus : ∃ r, d.menus? = some r ∧ r.Own
  categories : ∃ r, d.categories? = some r ∧ r.Own
  listed : ∀ c menuId, ¬d.Dangles c menuId

/-- A category that stays lists a menu of the category that goes. -/
def Strands (d : Directory) (entityId : String) (c : Category) (menuId : String) : Prop :=
  d.Stores RegistryId.categories (.category c) ∧ c.id ≠ entityId ∧ c.lists menuId ∧
    ∃ gone m, d.Stores RegistryId.categories (.category gone) ∧ gone.id = entityId ∧
      d.Stores RegistryId.menus (.menu m) ∧ m.id = menuId ∧ (Entity.menu m).Of gone

theorem lists_withoutMenu {x : Entity} (h : x.withoutMenu entityId = .category c) :
    ∃ c', x = .category c' ∧ ∀ menuId, c.lists menuId ↔ c'.lists menuId ∧ menuId ≠ entityId := by
  cases x with
  | category c' =>
    cases h
    refine ⟨c', rfl, fun menuId => ?_⟩
    simp only [Category.lists, List.any_eq_true, List.mem_filter, decide_eq_true_eq]
    constructor
    · rintro ⟨m, ⟨hm, hne⟩, rfl⟩
      exact ⟨⟨m, hm, rfl⟩, hne⟩
    · rintro ⟨⟨m, hm, rfl⟩, hne⟩
      exact ⟨m, ⟨hm, hne⟩, rfl⟩
  | order | menu | menuOption | optionGroup => cases h

theorem Whole.files (h : d.Whole) (hstored : d.Stores RegistryId.categories (.category c)) (hlists : c.lists menuId) :
    d.Files RegistryId.menus menuId :=
  Classical.byContradiction fun hfiles => h.listed c menuId ⟨hstored, hlists, hfiles⟩

theorem delete_menu_listed (h : d.Whole) (entityId : String) :
    ∃ x, d.delete RegistryId.menus entityId = .ok x ∧ ∀ c menuId, ¬x.directory.Dangles c menuId := by
  obtain ⟨menus, hmenus, -⟩ := h.menus
  obtain ⟨categories, hcategories, hown⟩ := h.categories
  obtain ⟨x, hx, hremoved, hstripped⟩ := delete_menu_contents hmenus hcategories hown entityId
  refine ⟨x, hx, fun c menuId ⟨⟨id, hid⟩, hlists, hfiles⟩ => hfiles ?_⟩
  rw [hstripped] at hid
  obtain ⟨p, hp, heq⟩ := List.mem_map.1 hid
  obtain ⟨c', hc', hlisted⟩ := lists_withoutMenu (congrArg (·.2) heq)
  obtain ⟨hlists', hne⟩ := (hlisted menuId).1 hlists
  have hstored : d.Stores RegistryId.categories (.category c') := ⟨p.1, hc' ▸ hp⟩
  obtain ⟨e, he⟩ := Entries.mem_ids.1 (h.files hstored hlists')
  rw [Files, hremoved]
  exact Entries.mem_ids_of_mem (Entries.mem_remove.2 ⟨he, hne⟩)

theorem delete_category_dangles (h : d.Whole) (entityId : String) :
    ∃ x, d.delete RegistryId.categories entityId = .ok x ∧
      ∀ c menuId, x.directory.Dangles c menuId ↔ d.Strands entityId c menuId := by
  obtain ⟨menus, hmenus, hownMenus⟩ := h.menus
  obtain ⟨categories, hcategories, hown⟩ := h.categories
  obtain ⟨x, hx, hremoved, hdropped⟩ := delete_category_contents hmenus hcategories hownMenus entityId
  have hget := (typed?_eq_some_iff.1 hcategories).1
  have hgetMenus := (typed?_eq_some_iff.1 hmenus).1
  rw [contents_of_get? hgetMenus] at hdropped
  have hstored := stores_iff hget hown
  have hstoredMenus := stores_iff hgetMenus hownMenus
  have hthere : ∀ {c menuId}, d.Stores RegistryId.categories (.category c) → c.lists menuId →
      menuId ∈ Entries.ids menus.entries := by
    intro c menuId hstored hlists
    rw [← contents_of_get? hgetMenus]
    exact h.files hstored hlists
  refine ⟨x, hx, fun c menuId => ?_⟩
  rw [Dangles, stores_removed_iff hget hown hremoved, Files, hdropped]
  constructor
  · rintro ⟨⟨hc, hne⟩, hlists, hfiles⟩
    obtain ⟨gone, hgone, y, hy, hof⟩ := (Registry.not_mem_ids_leaves_iff (hthere hc hlists) _).1 hfiles
    obtain ⟨m, rfl⟩ := Registry.exists_menu_of hof
    have hmem := Registry.category?_eq_some_iff.1 hgone
    obtain rfl : entityId = gone.id := hown.id_of_mem_entries hmem
    obtain rfl : menuId = m.id := hownMenus.id_of_mem_entries hy
    exact ⟨hc, hne, hlists, gone, m, (hstored _).2 hmem, rfl, (hstoredMenus _).2 hy, rfl, hof⟩
  · rintro ⟨hc, hne, hlists, gone, m, hgone, rfl, hm, rfl, hof⟩
    have hfound := Registry.category?_eq_some_iff.2 ((hstored _).1 hgone)
    exact ⟨⟨hc, hne⟩, hlists, (Registry.not_mem_ids_leaves_iff (hthere hc hlists) _).2
      ⟨gone, hfound, .menu m, (hstoredMenus _).1 hm, hof⟩⟩

/-- **Dangling references.** A deletion that finds every listed menu there
leaves it so, but for the menus of a deleted category that other categories
list. -/
theorem delete_dangles (h : d.Whole) (hregistry : registryId = RegistryId.menus ∨ registryId = RegistryId.categories)
    (entityId : String) :
    ∃ x, d.delete registryId entityId = .ok x ∧ ∀ c menuId,
      x.directory.Dangles c menuId ↔ registryId = RegistryId.categories ∧ d.Strands entityId c menuId := by
  rcases hregistry with rfl | rfl
  · obtain ⟨x, hx, hlisted⟩ := delete_menu_listed h entityId
    exact ⟨x, hx, fun c menuId => iff_of_false (hlisted c menuId) fun hne => absurd hne.1 (by decide)⟩
  · obtain ⟨x, hx, hdangles⟩ := delete_category_dangles h entityId
    exact ⟨x, hx, fun c menuId => (hdangles c menuId).trans (and_iff_right rfl).symm⟩

/-! ## A menu of two categories -/

def specials : Category := ⟨"specials", "Specials", [latte]⟩

def shared : Directory where
  registries :=
    [filled RegistryId.menus [.ofMenu latte, .ofMenu tea],
      filled RegistryId.categories [.ofCategory drinks, .ofCategory specials]]
  ids_nodup := by decide
  all_not_mem := by decide

theorem contents_shared_menus :
    shared.contents RegistryId.menus = [("latte", .menu latte), ("tea", .menu tea)] := by
  show (filled RegistryId.menus [.ofMenu latte, .ofMenu tea]).view.entries = _
  rw [view_filled]
  decide

theorem contents_shared_categories :
    shared.contents RegistryId.categories = [("drinks", .category drinks), ("specials", .category specials)] := by
  show (filled RegistryId.categories [.ofCategory drinks, .ofCategory specials]).view.entries = _
  rw [view_filled]
  decide

theorem stores_shared_iff : shared.Stores RegistryId.categories (.category c) ↔ c = drinks ∨ c = specials := by
  simp [Stores, contents_shared_categories, exists_or]

theorem lists_drinks_iff : drinks.lists menuId ↔ menuId = "latte" ∨ menuId = "tea" := by
  simp only [Category.lists, drinks, latte, tea, List.any_cons, List.any_nil, Bool.or_false, Bool.or_eq_true,
    decide_eq_true_eq, @eq_comm _ menuId]
  tauto

theorem lists_specials_iff : specials.lists menuId ↔ menuId = "latte" := by
  simp [Category.lists, specials, latte, @eq_comm _ menuId]

theorem whole_shared : shared.Whole where
  menus := ⟨_, typed?_eq_some_iff.2 ⟨rfl, rfl, rfl⟩, Registry.own_replaceAll _ _⟩
  categories := ⟨_, typed?_eq_some_iff.2 ⟨rfl, rfl, rfl⟩, Registry.own_replaceAll _ _⟩
  listed c menuId := by
    rintro ⟨hstored, hlists, hfiles⟩
    have hmenu : menuId = "latte" ∨ menuId = "tea" := by
      rcases stores_shared_iff.1 hstored with rfl | rfl
      · exact lists_drinks_iff.1 hlists
      · exact .inl (lists_specials_iff.1 hlists)
    rw [Files, contents_shared_menus] at hfiles
    rcases hmenu with rfl | rfl <;> exact hfiles (by decide)

theorem strands_shared_iff : shared.Strands "drinks" c menuId ↔ c = specials ∧ menuId = "latte" := by
  constructor
  · rintro ⟨hstored, hne, hlists, -⟩
    rcases stores_shared_iff.1 hstored with rfl | rfl
    · exact absurd rfl hne
    · exact ⟨rfl, lists_specials_iff.1 hlists⟩
  · rintro ⟨rfl, rfl⟩
    have hlatte : shared.Stores RegistryId.menus (.menu latte) := by
      rw [Stores, contents_shared_menus]
      exact ⟨"latte", List.mem_cons_self⟩
    have hgone : shared.Stores RegistryId.categories (.category drinks) := stores_shared_iff.2 (.inl rfl)
    exact ⟨stores_shared_iff.2 (.inr rfl), by decide, by decide, drinks, latte, hgone, rfl, hlatte, rfl, by decide⟩

theorem delete_dangles_shared :
    shared.Whole ∧ ∃ x, shared.delete RegistryId.categories "drinks" = .ok x ∧
      ∀ c menuId, x.directory.Dangles c menuId ↔ c = specials ∧ menuId = "latte" := by
  obtain ⟨x, hx, hdangles⟩ := delete_dangles whole_shared (.inr rfl) "drinks"
  refine ⟨whole_shared, x, hx, fun c menuId => ?_⟩
  rw [hdangles, strands_shared_iff]
  exact and_iff_right rfl

/-- The other category still lists the menu that went with the first. -/
theorem delete_leaves_listed :
    shared.Whole ∧ ∃ x, shared.delete RegistryId.categories "drinks" = .ok x ∧
      x.directory.Stores RegistryId.categories (.category specials) ∧ specials.lists "latte" ∧
      ¬x.directory.Files RegistryId.menus "latte" := by
  obtain ⟨x, hx, hdangles⟩ := delete_category_dangles whole_shared "drinks"
  exact ⟨whole_shared, x, hx, (hdangles specials "latte").2 (strands_shared_iff.2 ⟨rfl, rfl⟩)⟩

end Directory

end OrderDesk
