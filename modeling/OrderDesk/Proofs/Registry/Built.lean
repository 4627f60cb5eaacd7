import Mathlib.Data.List.Induction
import OrderDesk.Proofs.Registry.Writes

/-!
# Directories that operations lead to

A node registers empty registries and changes them afterwards, under whatever
ids it likes. A registry with the descending policy owns its ids all the same.
-/

namespace OrderDesk

namespace Registry

theorem own_after_descending {r : Registry} (hp : r.policy = .descendingOrderId) (h : r.Own) (c : Change r.kind) :
    (r.after c).Own := by
  have hafter := Of.listing_after ⟨r, rfl⟩ c
  refine (Of.own_iff (Of.after ⟨r, rfl⟩ c)).2 ?_
  rw [hafter, hp]
  exact Listing.own_after_descending (s := Of.listing ⟨r, rfl⟩) h c

end Registry

namespace Directory

variable {d d' : Directory}

/-- What the node itself does to its directory. -/
inductive Edit (d : Directory) : Directory → Prop
  | register (id : String) (kind : EntityKind) (policy : Policy) (hp : policy = .descendingOrderId → kind = .order)
    {d' : Directory} (hd : d.register (.empty id kind policy hp) = .ok d') : Edit d d'
  | change {r : Registry} (hr : d.get? r.id = some r) (c : Registry.Change r.kind) : Edit d (d.set (r.after c))

inductive Built : Directory → Prop
  | empty : Built .empty
  | edit {d d' : Directory} (h : Built d) (he : d.Edit d') : Built d'

/-- The descending registries own their ids. -/
def OwnsDescending (d : Directory) : Prop := ∀ r ∈ d.registries, r.policy = .descendingOrderId → r.Own

theorem OwnsDescending.edit (h : d.OwnsDescending) (he : d.Edit d') : d'.OwnsDescending := by
  intro q hq hpolicy
  cases he with
  | register _ _ _ _ hd =>
    rw [(register_eq_ok_iff.1 hd).2.2] at hq
    rcases List.mem_append.1 hq with hq | hq
    · exact h q hq hpolicy
    · rw [List.mem_singleton.1 hq]
      exact Entries.own_nil
  | @change r hr c =>
    obtain ⟨q, hmem, rfl⟩ := List.mem_map.1 hq
    by_cases hid : q.id = (r.after c).id
    · rw [if_pos hid] at hpolicy ⊢
      have hold : r.policy = .descendingOrderId := (r.policy_after c).symm.trans hpolicy
      exact Registry.own_after_descending hold (h r (mem_of_get? hr) hold) c
    · rw [if_neg hid] at hpolicy ⊢
      exact h q hmem hpolicy

theorem OwnsDescending.keeps (h : d.OwnsDescending) (hk : d.Keeps d') : d'.OwnsDescending :=
  fun _ hq hp => hk.own hq fun r hr _ _ hpolicy => h r hr (hpolicy.trans hp)

theorem Built.ownsDescending (h : Built d) : d.OwnsDescending := by
  induction h with
  | empty => exact fun r hr => absurd hr List.not_mem_nil
  | edit _ he ih => exact ih.edit he

theorem built_of_empty (d : Directory)
    (h : ∀ r ∈ d.registries, ∃ id kind policy hp, r = Registry.empty id kind policy hp) : Built d := by
  -- on the registry that was registered last
  generalize hrs : d.registries = rs at h
  induction rs using List.reverseRecOn generalizing d with
  | nil =>
    obtain rfl : d = empty := ext_registries hrs
    exact .empty
  | append_singleton rs r ih =>
    obtain ⟨id, kind, policy, hp, rfl⟩ := h r (List.mem_append_right rs (List.mem_singleton_self r))
    have hnodup := d.ids_nodup
    have hall := d.all_not_mem
    rw [hrs, List.map_append, List.map_singleton] at hnodup hall
    have hnew := (List.nodup_append.1 hnodup).2.2
    let d₀ : Directory :=
      { registries := rs
        ids_nodup := (List.nodup_append.1 hnodup).1
        all_not_mem := fun hmem => hall (List.mem_append_left _ hmem) }
    have hregister : d₀.register (.empty id kind policy hp) = .ok d :=
      register_eq_ok_iff.2 ⟨fun heq => hall (List.mem_append_right _ (List.mem_singleton.2 heq.symm)),
        fun hmem => hnew _ hmem _ (List.mem_singleton_self _) rfl, hrs⟩
    exact (ih d₀ rfl fun q hq => h q (List.mem_append_left _ hq)).edit (.register id kind policy hp hregister)

theorem built_standard : Built standard := by
  refine built_of_empty standard fun r hr => ?_
  simp only [standard, List.mem_cons, List.not_mem_nil, or_false] at hr
  rcases hr with rfl | rfl | rfl | rfl | rfl <;> exact ⟨_, _, _, _, rfl⟩

end Directory

end OrderDesk
