import OrderDesk.Proofs.Registry.Writes

/-!
# Operations of callers who do not know the kind

A caller who knows a registry by its id alone hands it entities of any kind.
The kinds are checked first; what is left is a change like any other, or a
refusal. `perform_eq_error_iff` says what is refused and with which error.
-/

namespace OrderDesk.Registry

/-! ## Operations as data -/

/-- A change, or an operation on a registry whose kind the caller does not
know. -/
inductive Operation (kind : EntityKind)
  | change (c : Change kind)
  | addEntity (id : String) (e : Entity)
  | addEntities (es : List Entity)
  | replaceEntities (es : List Entity)
  | upsertEntity (e : Entity)
  | evict (id : String)

namespace Operation

variable {kind : EntityKind}

/-- The entities whose kind is not known yet. -/
def unchecked : Operation kind → List Entity
  | addEntity _ e | upsertEntity e => [e]
  | addEntities es | replaceEntities es => es
  | change _ | evict _ => []

def isGuarded : Operation kind → Bool
  | change (.direct _) | addEntity .. | addEntities _ => true
  | _ => false

def isForced : Operation kind → Bool
  | change (.upsert _) | change (.replaceAll _) | change (.transaction _) => true
  | replaceEntities _ | upsertEntity _ | evict _ => true
  | _ => false

end Operation

def perform (r : Registry) : Operation r.kind → Except RegistryError Registry
  | .change c => r.apply c
  | .addEntity id e => r.addEntity id e
  | .addEntities es => r.addEntities es
  | .replaceEntities es => r.replaceEntities es
  | .upsertEntity e => r.upsertEntity e
  | .evict id => .ok (r.evict id)

/-- The change that an operation comes to once the kinds are checked. -/
def resolve (r : Registry) : Operation r.kind → Except RegistryError (Change r.kind)
  | .change c => .ok c
  | .addEntity id e => (fun e => .direct (.add id e)) <$> r.element e
  | .addEntities es => (fun es => .direct (.addAll es)) <$> r.elements es
  | .replaceEntities es => .replaceAll <$> r.elements es
  | .upsertEntity e => .upsert <$> r.element e
  | .evict id => .ok (.transaction [.remove id])

theorem perform_eq (r : Registry) (op : Operation r.kind) : r.perform op = r.resolve op >>= r.apply := by
  cases op with
  | change | evict => rfl
  | addEntity id e =>
    simp only [perform, resolve, addEntity]
    cases r.element e <;> rfl
  | addEntities es =>
    simp only [perform, resolve, addEntities]
    cases r.elements es <;> rfl
  | replaceEntities es =>
    simp only [perform, resolve, replaceEntities]
    cases r.elements es <;> rfl
  | upsertEntity e =>
    simp only [perform, resolve, upsertEntity]
    cases r.element e <;> rfl

/-! ## Refusals -/

variable {r : Registry} {op : Operation r.kind} {c : Change r.kind} {x : Entity} {e : RegistryError}

theorem element_eq_ok (h : x.kind = r.kind) : r.element x = .ok ⟨x, h⟩ := by
  have hx : Element.ofEntity? r.kind x = some ⟨x, h⟩ := dif_pos h
  rw [element, hx]

theorem element_eq_error (h : x.kind ≠ r.kind) : r.element x = .error (.typeMismatch r.id r.kind x.kind) := by
  have hx : Element.ofEntity? r.kind x = none := dif_neg h
  rw [element, hx]

/-- The first entity of another kind is the one that a batch is refused for. -/
theorem elements_eq_error_iff {xs : List Entity} :
    r.elements xs = .error e ↔
      ∃ x, xs.find? (·.kind ≠ r.kind) = some x ∧ e = .typeMismatch r.id r.kind x.kind := by
  induction xs with
  | nil => simp [elements, pure, Except.pure]
  | cons x xs ih =>
    rw [elements] at ih
    rw [elements, List.mapM_cons, List.find?_cons]
    by_cases hx : x.kind = r.kind
    · rw [element_eq_ok hx]
      simp only [hx, ne_eq, not_true, decide_false]
      rw [← ih]
      cases xs.mapM r.element <;> simp [bind, Except.bind, pure, Except.pure]
    · simp [element_eq_error hx, hx, bind, Except.bind, eq_comm]

theorem resolve_eq_error_iff :
    r.resolve op = .error e ↔
      ∃ x, op.unchecked.find? (·.kind ≠ r.kind) = some x ∧ e = .typeMismatch r.id r.kind x.kind := by
  have hmap : ∀ {α : Type} (f : α → Change r.kind) (checked : Except RegistryError α),
      f <$> checked = .error e ↔ checked = .error e := by
    intro α f checked
    cases checked <;> simp [Functor.map, Except.map]
  have hone : ∀ x, r.element x = .error e ↔ r.elements [x] = .error e := by
    intro x
    rw [elements, List.mapM_cons, List.mapM_nil]
    cases r.element x <;> simp [bind, Except.bind, pure, Except.pure]
  cases op with
  | change | evict => simp [resolve, Operation.unchecked]
  | addEntity id x => rw [resolve, hmap, hone, elements_eq_error_iff, Operation.unchecked]
  | upsertEntity x => rw [resolve, hmap, hone, elements_eq_error_iff, Operation.unchecked]
  | addEntities xs => rw [resolve, hmap, elements_eq_error_iff, Operation.unchecked]
  | replaceEntities xs => rw [resolve, hmap, elements_eq_error_iff, Operation.unchecked]

/-- What an operation comes to, if all its entities are of the kind. -/
inductive Resolves {kind : EntityKind} : Operation kind → Change kind → Prop
  | change (c : Change kind) : Resolves (.change c) c
  | added (id : String) (e : Element kind) : Resolves (.addEntity id e.entity) (.direct (.add id e))
  | addedAll (es : List (Element kind)) : Resolves (.addEntities (es.map (·.entity))) (.direct (.addAll es))
  | replaced (es : List (Element kind)) : Resolves (.replaceEntities (es.map (·.entity))) (.replaceAll es)
  | upserted (e : Element kind) : Resolves (.upsertEntity e.entity) (.upsert e)
  | evicted (id : String) : Resolves (.evict id) (.transaction [.remove id])

theorem exists_of_map_eq_ok {α β : Type} {f : α → β} {checked : Except RegistryError α} {b : β}
    (h : f <$> checked = .ok b) : ∃ a, checked = .ok a ∧ f a = b := by
  cases checked with
  | error e => cases h
  | ok a => exact ⟨a, rfl, Except.ok.inj h⟩

theorem resolves (h : r.resolve op = .ok c) : Resolves op c := by
  cases op with
  | change c' =>
    cases h
    exact .change c
  | addEntity id x =>
    obtain ⟨e, he, rfl⟩ := exists_of_map_eq_ok h
    rw [← entity_of_element he]
    exact .added id e
  | addEntities xs =>
    obtain ⟨es, hes, rfl⟩ := exists_of_map_eq_ok h
    rw [← entities_of_elements hes]
    exact .addedAll es
  | replaceEntities xs =>
    obtain ⟨es, hes, rfl⟩ := exists_of_map_eq_ok h
    rw [← entities_of_elements hes]
    exact .replaced es
  | upsertEntity x =>
    obtain ⟨e, he, rfl⟩ := exists_of_map_eq_ok h
    rw [← entity_of_element he]
    exact .upserted e
  | evict id =>
    cases h
    exact .evicted id

theorem Resolves.isGuarded_iff {kind : EntityKind} {op : Operation kind} {c : Change kind} (h : Resolves op c) :
    op.isGuarded = true ↔ ∃ step, c = .direct step := by
  cases h with
  | change => cases c <;> simp [Operation.isGuarded]
  | _ => simp [Operation.isGuarded]

theorem apply_eq_error_iff :
    r.apply c = .error e ↔ r.frozen = true ∧ (∃ step, c = .direct step) ∧ e = .frozen r.id :=
  Of.apply_eq_error_iff ⟨r, rfl⟩ c e

theorem find?_eq_none_iff {xs : List Entity} {kind : EntityKind} :
    xs.find? (·.kind ≠ kind) = none ↔ ∀ x ∈ xs, x.kind = kind := by
  simp

theorem exists_resolves (h : ∀ x ∈ op.unchecked, x.kind = r.kind) :
    ∃ c, Resolves op c ∧ r.perform op = r.apply c := by
  cases hres : r.resolve op with
  | ok c =>
    refine ⟨c, resolves hres, ?_⟩
    rw [perform_eq, hres]
    rfl
  | error e =>
    obtain ⟨x, hx, -⟩ := resolve_eq_error_iff.1 hres
    rw [find?_eq_none_iff.2 h] at hx
    cases hx

/-- A wrong kind is what an operation is refused for first; a guarded operation
is refused else if the registry is frozen. -/
theorem perform_eq_error_iff :
    r.perform op = .error e ↔
      (∃ x, op.unchecked.find? (·.kind ≠ r.kind) = some x ∧ e = .typeMismatch r.id r.kind x.kind) ∨
        (∀ x ∈ op.unchecked, x.kind = r.kind) ∧ op.isGuarded = true ∧ r.frozen = true ∧ e = .frozen r.id := by
  by_cases hgood : ∀ x ∈ op.unchecked, x.kind = r.kind
  · obtain ⟨c, hc, hperform⟩ := exists_resolves hgood
    rw [hperform, apply_eq_error_iff, find?_eq_none_iff.2 hgood, hc.isGuarded_iff]
    simp only [reduceCtorEq, false_and, exists_false, false_or]
    tauto
  · obtain ⟨x, hx⟩ : ∃ x, op.unchecked.find? (·.kind ≠ r.kind) = some x :=
      Option.ne_none_iff_exists'.1 (mt find?_eq_none_iff.1 hgood)
    have hresolve : r.resolve op = .error (.typeMismatch r.id r.kind x.kind) :=
      resolve_eq_error_iff.2 ⟨x, hx, rfl⟩
    rw [perform_eq, hresolve, hx, or_iff_left fun h => hgood h.1]
    simp [bind, Except.bind, eq_comm]

theorem exists_perform_forced (hforced : op.isForced = true) (h : ∀ x ∈ op.unchecked, x.kind = r.kind) :
    ∃ r', r.perform op = .ok r' ∧ r'.frozen = true := by
  obtain ⟨c, hc, hperform⟩ := exists_resolves h
  rw [hperform]
  cases hc with
  | change =>
    cases c with
    | upsert | replaceAll | transaction => exact ⟨_, rfl, rfl⟩
    | direct | freeze | unfreeze => cases hforced
  | replaced | upserted | evicted => exact ⟨_, rfl, rfl⟩
  | added | addedAll => cases hforced

/-! ## Runs -/

/-- The registry after an operation, refused or not. -/
def afterOperation (r : Registry) (op : Operation r.kind) : Registry :=
  match r.perform op with
  | .ok r' => r'
  | .error _ => r

theorem afterOperation_cases (r : Registry) (op : Operation r.kind) :
    (∃ c, Resolves op c ∧ r.perform op = r.apply c ∧ r.afterOperation op = r.after c) ∨
      ∃ e, r.perform op = .error e ∧ r.afterOperation op = r := by
  by_cases hkinds : ∀ x ∈ op.unchecked, x.kind = r.kind
  · left
    obtain ⟨c, hc, hperform⟩ := exists_resolves hkinds
    refine ⟨c, hc, hperform, ?_⟩
    rw [afterOperation, hperform]
    rfl
  · right
    obtain ⟨x, hx⟩ := Option.ne_none_iff_exists'.1 (mt find?_eq_none_iff.1 hkinds)
    have hperform := perform_eq_error_iff.2 (.inl ⟨x, hx, rfl⟩)
    refine ⟨_, hperform, ?_⟩
    rw [afterOperation, hperform]

theorem kind_afterOperation (r : Registry) (op : Operation r.kind) : (r.afterOperation op).kind = r.kind := by
  obtain ⟨c, -, -, hafter⟩ | ⟨e, -, hafter⟩ := r.afterOperation_cases op
  · rw [hafter]
    exact r.kind_after c
  · rw [hafter]

namespace Of

def all : {kind : EntityKind} → Of kind → List (Element kind)
  | _, ⟨r, rfl⟩ => r.all

def get? {kind : EntityKind} (r : Of kind) (id : String) : Option (Element kind) := r.store.get? id

theorem mem_all {kind : EntityKind} {r : Of kind} {e : Element kind} :
    e ∈ r.all ↔ ∃ id, (id, e) ∈ r.listing.entries := by
  obtain ⟨r, rfl⟩ := r
  exact Registry.mem_all

theorem get?_eq_some_iff {kind : EntityKind} {r : Of kind} (h : r.val.Own) {id : String} {e : Element kind} :
    r.get? id = some e ↔ e ∈ r.all ∧ e.id = id := by
  obtain ⟨r, rfl⟩ := r
  exact Own.get?_eq_some_iff h

theorem nodup_ids {kind : EntityKind} {r : Of kind} (h : r.val.Own) : (r.all.map (·.id)).Nodup := by
  obtain ⟨r, rfl⟩ := r
  exact Own.nodup_ids h

def perform : {kind : EntityKind} → Of kind → Operation kind → Except RegistryError Registry
  | _, ⟨r, rfl⟩, op => r.perform op

def afterOperation : {kind : EntityKind} → Of kind → Operation kind → Of kind
  | _, ⟨r, rfl⟩, op => ⟨r.afterOperation op, r.kind_afterOperation op⟩

theorem afterOperation_cases {kind : EntityKind} (r : Of kind) (op : Operation kind) :
    (∃ c, Resolves op c ∧ r.perform op = r.apply c ∧ r.afterOperation op = r.after c) ∨
      ∃ e, r.perform op = .error e ∧ r.afterOperation op = r := by
  obtain ⟨r, rfl⟩ := r
  obtain ⟨c, hc, hperform, hafter⟩ | ⟨e, herror, hafter⟩ := r.afterOperation_cases op
  · exact .inl ⟨c, hc, hperform, Subtype.ext hafter⟩
  · exact .inr ⟨e, herror, Subtype.ext hafter⟩

theorem policy_afterOperation {kind : EntityKind} (r : Of kind) (op : Operation kind) :
    (r.afterOperation op).val.policy = r.val.policy := by
  obtain ⟨c, -, -, hafter⟩ | ⟨e, -, hafter⟩ := r.afterOperation_cases op
  · rw [hafter]
    exact r.policy_after c
  · rw [hafter]

def operate {kind : EntityKind} (r : Of kind) (ops : List (Operation kind)) : Of kind := ops.foldl afterOperation r

end Of

end OrderDesk.Registry
