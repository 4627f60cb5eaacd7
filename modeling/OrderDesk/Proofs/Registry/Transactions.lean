import OrderDesk.Proofs.Registry.Writes

/-!
# Transactions and evictions

An entity that is filed under one id and found under another is evicted from
that one. Transactions are written out as steps here, so that it can be said of
every filing on the way whether it evicts. If each files under the own id of
the entity, in registries that own their ids, none does: `Runs.own`.
-/

namespace OrderDesk

/-! ## Evictions -/

namespace Store

variable {α : Type} [DecidableEq α] [Hashable α]

/-- The other id that a value loses when it is filed. -/
def evicted? (s : Store α) (id : String) (a : α) : Option String := (s.idOf? a).filter (· ≠ id)

/-- Filing takes the value away from the id that it loses, and then puts it. -/
theorem index_insert (s : Store α) (id : String) (a : α) :
    (s.insert id a).index = (((s.evicted? id a).map s.index.erase).getD s.index).put id a := by
  have hrelease : s.index.release id a = ((s.evicted? id a).map s.index.erase).getD s.index := by
    rw [Index.release, evicted?, idOf?]
    cases hold : s.index.byValue[a]? with
    | none => rfl
    | some old =>
      rw [Option.filter_some]
      by_cases hid : old = id
      · simp [hid]
      · simp [hid]
  exact congrArg (·.put id a) hrelease

theorem evicted?_eq_some_iff {s : Store α} {id : String} {a : α} {old : String} :
    s.evicted? id a = some old ↔ (old, a) ∈ s.toList ∧ old ≠ id := by
  rw [evicted?, Option.filter_eq_some_iff, s.idOf?_eq_some_iff, decide_eq_true_iff]

end Store

namespace Registry

variable {kind : EntityKind} {store : Store (Element kind)}

/-- The ids that entities lose when all of these are filed, one after the other. -/
def evicted (policy : Policy) : Store (Element kind) → List (String × Element kind) → List String
  | _, [] => []
  | store, (id, e) :: filings =>
    (store.evicted? (policy.fileUnder id e) e).toList ++ evicted policy (file policy store id e) filings

def Step.filings : Step kind → List (String × Element kind)
  | add id e => [(id, e)]
  | addAll es => es.map fun e => (e.id, e)
  | remove _ | clear => []

def Step.Own (st : Step kind) : Prop := Entries.Own st.filings

def evictedIn (policy : Policy) : Store (Element kind) → List (Step kind) → List String
  | _, [] => []
  | store, st :: steps => evicted policy store st.filings ++ evictedIn policy (st.run policy store) steps

/-- A step that takes no entity from another id. -/
def Step.plain (policy : Policy) (x : Index (Element kind)) : Step kind → Index (Element kind)
  | add id e => x.put (policy.fileUnder id e) e
  | addAll es => es.foldl (fun x e => x.put (policy.fileUnder e.id e) e) x
  | remove id => x.erase id
  | clear => .empty

theorem index_file (policy : Policy) {id : String} {e : Element kind}
    (h : store.evicted? (policy.fileUnder id e) e = none) :
    (file policy store id e).index = store.index.put (policy.fileUnder id e) e := by
  have hinsert := store.index_insert (policy.fileUnder id e) e
  rw [h] at hinsert
  exact hinsert

theorem index_fileAll (policy : Policy) {es : List (Element kind)}
    (h : evicted policy store (es.map fun e => (e.id, e)) = []) :
    (fileAll policy store es).index = (Step.addAll es).plain policy store.index := by
  induction es generalizing store with
  | nil => rfl
  | cons e es ih =>
    obtain ⟨hfirst, hrest⟩ := List.append_eq_nil_iff.1 h
    have hfile := index_file policy (Option.toList_eq_nil_iff.1 hfirst)
    rw [Step.plain, List.foldl_cons, ← hfile]
    exact ih hrest

theorem index_step (policy : Policy) {st : Step kind} (h : evicted policy store st.filings = []) :
    (st.run policy store).index = st.plain policy store.index := by
  cases st with
  | add id e =>
    obtain ⟨hfirst, -⟩ := List.append_eq_nil_iff.1 h
    exact index_file policy (Option.toList_eq_nil_iff.1 hfirst)
  | addAll es => exact index_fileAll policy h
  | remove | clear => rfl

/-- Steps that evict nothing are plain. -/
theorem index_steps (policy : Policy) {steps : List (Step kind)} (h : evictedIn policy store steps = []) :
    (steps.foldl (Step.run policy) store).index = steps.foldl (Step.plain policy) store.index := by
  induction steps generalizing store with
  | nil => rfl
  | cons st steps ih =>
    obtain ⟨hfirst, hrest⟩ := List.append_eq_nil_iff.1 h
    rw [List.foldl_cons, List.foldl_cons, ih hrest, index_step policy hfirst]

theorem Step.own_addAll (es : List (Element kind)) : (addAll es).Own := by
  intro p hp
  obtain ⟨e, -, rfl⟩ := List.mem_map.1 hp
  rfl

theorem evicted_eq_nil (h : Entries.Own store.toList) (policy : Policy) {filings : List (String × Element kind)}
    (hf : Entries.Own filings) : evicted policy store filings = [] := by
  induction filings generalizing store with
  | nil => rfl
  | cons p filings ih =>
    obtain ⟨id, e⟩ := p
    obtain rfl : id = e.id := hf _ List.mem_cons_self
    have hnone : store.evicted? e.id e = none := by
      refine Option.eq_none_iff_forall_ne_some.2 fun old hold => ?_
      obtain ⟨hmem, hne⟩ := Store.evicted?_eq_some_iff.1 hold
      exact hne (h _ hmem)
    have hfile : Entries.Own (file policy store e.id e).toList := by
      rw [toList_file]
      exact h.listingFile policy e
    rw [evicted, Entries.fileUnder_own, hnone, ih hfile fun p hp => hf p (List.mem_cons_of_mem _ hp)]
    rfl

theorem Step.Own.run {st : Step kind} (hst : st.Own) (policy : Policy) (h : Entries.Own store.toList) :
    Entries.Own (st.run policy store).toList := by
  rw [toList_step]
  cases st with
  | add id e =>
    obtain rfl : id = e.id := hst _ (List.mem_singleton_self _)
    exact h.listingFile policy e
  | addAll es => exact h.listingFileAll policy es
  | remove id => exact h.remove id
  | clear => exact Entries.own_nil

theorem own_run_steps (h : Entries.Own store.toList) (policy : Policy) {steps : List (Step kind)}
    (hsteps : ∀ st ∈ steps, st.Own) :
    Entries.Own (steps.foldl (Step.run policy) store).toList ∧ evictedIn policy store steps = [] := by
  induction steps generalizing store with
  | nil => exact ⟨h, rfl⟩
  | cons st steps ih =>
    have hst := hsteps st List.mem_cons_self
    obtain ⟨hown, hnil⟩ := ih (hst.run policy h) fun st' hst' => hsteps st' (List.mem_cons_of_mem st hst')
    refine ⟨hown, ?_⟩
    rw [evictedIn, evicted_eq_nil h policy hst, hnil]
    rfl

end Registry

/-! ## Transactions -/

/-- A transaction, with the registry as it finds it. It files entities under
their own ids. -/
structure Transaction where
  registry : Registry
  steps : List (Registry.Step registry.kind)
  own : ∀ st ∈ steps, st.Own

namespace Transaction

def result (t : Transaction) : Registry :=
  t.registry.transact fun store => t.steps.foldl (Registry.Step.run t.registry.policy) store

def evicted (t : Transaction) : List String := Registry.evictedIn t.registry.policy t.registry.store t.steps

/-- The records after the transaction, if it takes no entity from another id. -/
def plain (t : Transaction) : Index (Element t.registry.kind) :=
  t.steps.foldl (Registry.Step.plain t.registry.policy) t.registry.store.index

theorem index_result {t : Transaction} (h : t.evicted = []) : t.result.store.index = t.plain :=
  Registry.index_steps t.registry.policy h

def upsert (r : Registry) (e : Element r.kind) : Transaction where
  registry := r
  steps := [.add e.id e]
  own := by simp [Registry.Step.Own, Registry.Step.filings, Entries.Own]

def replaceAll (r : Registry) (es : List (Element r.kind)) : Transaction where
  registry := r
  steps := [.clear, .addAll es]
  own := by
    intro st hst
    rcases List.mem_pair.1 hst with rfl | rfl
    · exact Entries.own_nil
    · exact Registry.Step.own_addAll es

def removeAll (r : Registry) (ids : List String) : Transaction where
  registry := r
  steps := ids.map .remove
  own := by
    intro st hst
    obtain ⟨id, -, rfl⟩ := List.mem_map.1 hst
    exact Entries.own_nil

def stripMenu (r : Registry) (menuId : String) : Transaction where
  registry := r
  steps := [.addAll (Registry.stripped r.store menuId)]
  own := by
    intro st hst
    obtain rfl := List.mem_singleton.1 hst
    exact Registry.Step.own_addAll _

theorem result_removeAll (r : Registry) (ids : List String) :
    (removeAll r ids).result = r.transact fun store => ids.foldl (·.erase ·) store :=
  congrArg r.transact (funext fun _ => List.foldl_map)

end Transaction

/-! ## Transactions on a directory -/

namespace Directory

/-- Some transactions lead from a directory to another. Each finds its registry
there as those before have left it. -/
inductive Runs : Directory → List Transaction → Directory → Prop
  | nil (d : Directory) : Runs d [] d
  | cons {d d' : Directory} {t : Transaction} {ts : List Transaction} (ht : d.get? t.registry.id = some t.registry)
    (h : Runs (d.set t.result) ts d') : Runs d (t :: ts) d'

variable {d d' : Directory} {ts : List Transaction}

theorem Runs.single {t : Transaction} (ht : d.get? t.registry.id = some t.registry) : d.Runs [t] (d.set t.result) :=
  .cons ht (.nil _)

/-- Where all registries own their ids they do so after the transactions, and on
the way nothing is evicted. -/
theorem Runs.own (h : d.Runs ts d') (hown : ∀ r ∈ d.registries, r.Own) :
    (∀ r ∈ d'.registries, r.Own) ∧ ∀ t ∈ ts, t.evicted = [] := by
  induction h with
  | nil d => exact ⟨hown, fun t ht => absurd ht List.not_mem_nil⟩
  | @cons d d' t ts ht _ ih =>
    obtain ⟨hresult, hnil⟩ := Registry.own_run_steps (hown _ (mem_of_get? ht)) t.registry.policy t.own
    have hkeeps : d.Keeps (d.set t.result) := keeps_set_transact ht fun _ => hresult
    obtain ⟨hown', hevicted⟩ := ih fun r hr => hkeeps.own hr fun q hq _ _ _ => hown q hq
    exact ⟨hown', List.forall_mem_cons.2 ⟨hnil, hevicted⟩⟩

end Directory

end OrderDesk
