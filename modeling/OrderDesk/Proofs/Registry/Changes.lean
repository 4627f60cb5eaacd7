import OrderDesk.Registry.Basic

/-!
# Registries under any changes

The operations on a registry as data, run one after the other on an empty
registry, beside a listing: a flag and a list of filed entities. Main result:
`run_agrees`. Whatever the changes, all records and look-ups of the registry
agree with the listing that the same changes make.
-/

namespace OrderDesk.Registry

/-! ## Operations as data -/

/-- A step of a transaction. The same four steps outside of a transaction are
the changes that a frozen registry refuses. -/
inductive Step (kind : EntityKind)
  | add (id : String) (e : Element kind)
  | addAll (es : List (Element kind))
  | remove (id : String)
  | clear

inductive Change (kind : EntityKind)
  | direct (step : Step kind)
  | freeze
  | unfreeze
  | upsert (e : Element kind)
  | replaceAll (es : List (Element kind))
  | transaction (steps : List (Step kind))

def Step.run {kind : EntityKind} (policy : Policy) (store : Store (Element kind)) : Step kind → Store (Element kind)
  | add id e => file policy store id e
  | addAll es => fileAll policy store es
  | remove id => store.erase id
  | clear => .empty

def take (r : Registry) : Step r.kind → Except RegistryError Registry
  | .add id e => r.add id e
  | .addAll es => r.addAll es
  | .remove id => r.remove id
  | .clear => r.clear

def apply (r : Registry) : Change r.kind → Except RegistryError Registry
  | .direct step => r.take step
  | .freeze => .ok r.freeze
  | .unfreeze => .ok r.unfreeze
  | .upsert e => .ok (r.upsert e)
  | .replaceAll es => .ok (r.replaceAll es)
  | .transaction steps => .ok (r.transact fun store => steps.foldl (Step.run r.policy) store)

def after (r : Registry) (c : Change r.kind) : Registry :=
  match r.apply c with
  | .ok r' => r'
  | .error _ => r

theorem take_eq (r : Registry) (step : Step r.kind) :
    r.take step = if r.frozen then .error (.frozen r.id) else .ok { r with store := step.run r.policy r.store } := by
  cases step <;> rfl

theorem after_direct (r : Registry) (step : Step r.kind) :
    r.after (.direct step) = if r.frozen then r else { r with store := step.run r.policy r.store } := by
  simp only [after, apply, take_eq]
  cases r.frozen <;> rfl

theorem kind_after (r : Registry) (c : Change r.kind) : (r.after c).kind = r.kind := by
  cases c with
  | direct step =>
    rw [after_direct]
    split <;> rfl
  | _ => rfl

theorem policy_after (r : Registry) (c : Change r.kind) : (r.after c).policy = r.policy := by
  cases c with
  | direct step =>
    rw [after_direct]
    split <;> rfl
  | _ => rfl

theorem id_after (r : Registry) (c : Change r.kind) : (r.after c).id = r.id := by
  cases c with
  | direct step =>
    rw [after_direct]
    split <;> rfl
  | _ => rfl

def Of (kind : EntityKind) : Type := { r : Registry // r.kind = kind }

namespace Of

def store : {kind : EntityKind} → Of kind → Store (Element kind)
  | _, ⟨r, rfl⟩ => r.store

def apply : {kind : EntityKind} → Of kind → Change kind → Except RegistryError Registry
  | _, ⟨r, rfl⟩, c => r.apply c

def after : {kind : EntityKind} → Of kind → Change kind → Of kind
  | _, ⟨r, rfl⟩, c => ⟨r.after c, r.kind_after c⟩

variable {kind : EntityKind}

def empty (id : String) (policy : Policy) (h : policy = .descendingOrderId → kind = .order) : Of kind :=
  ⟨.empty id kind policy h, rfl⟩

def run (r : Of kind) (cs : List (Change kind)) : Of kind := cs.foldl after r

end Of

/-! ## Listings -/

/-- What a registry is about: whether it is frozen, and what is filed. -/
structure Listing (kind : EntityKind) where
  frozen : Bool
  entries : List (String × Element kind)

namespace Listing

variable {kind : EntityKind} (policy : Policy)

def empty : Listing kind := ⟨false, []⟩

def file (l : List (String × Element kind)) (proposed : String) (e : Element kind) : List (String × Element kind) :=
  Entries.file (policy.fileUnder proposed e) e l

def fileAll (l : List (String × Element kind)) (es : List (Element kind)) : List (String × Element kind) :=
  es.foldl (fun l e => file policy l e.id e) l

def step (l : List (String × Element kind)) : Step kind → List (String × Element kind)
  | .add id e => file policy l id e
  | .addAll es => fileAll policy l es
  | .remove id => Entries.remove id l
  | .clear => []

def after (s : Listing kind) : Change kind → Listing kind
  | .direct st => if s.frozen then s else ⟨false, step policy s.entries st⟩
  | .freeze => ⟨true, s.entries⟩
  | .unfreeze => ⟨false, s.entries⟩
  | .upsert e => ⟨true, file policy s.entries e.id e⟩
  | .replaceAll es => ⟨true, fileAll policy [] es⟩
  | .transaction steps => ⟨true, steps.foldl (step policy) s.entries⟩

def run (cs : List (Change kind)) : Listing kind := cs.foldl (after policy) empty

end Listing

/-! ## The registry follows its listing -/

section
variable {kind : EntityKind} (policy : Policy)

@[simp] theorem toList_file (store : Store (Element kind)) (proposed : String) (e : Element kind) :
    (file policy store proposed e).toList = Listing.file policy store.toList proposed e :=
  store.toList_insert _ _

@[simp] theorem toList_fileAll (store : Store (Element kind)) (es : List (Element kind)) :
    (fileAll policy store es).toList = Listing.fileAll policy store.toList es := by
  induction es generalizing store with
  | nil => rfl
  | cons e es ih =>
    simp only [fileAll, Listing.fileAll, List.foldl_cons] at ih ⊢
    rw [ih, toList_file]

theorem toList_step (store : Store (Element kind)) (st : Step kind) :
    (st.run policy store).toList = Listing.step policy store.toList st := by
  cases st with
  | add id e => exact toList_file policy store id e
  | addAll es => exact toList_fileAll policy store es
  | remove id => exact store.toList_erase id
  | clear => exact Store.toList_empty

theorem toList_steps (store : Store (Element kind)) (steps : List (Step kind)) :
    (steps.foldl (Step.run policy) store).toList = steps.foldl (Listing.step policy) store.toList := by
  induction steps generalizing store with
  | nil => rfl
  | cons st steps ih => rw [List.foldl_cons, List.foldl_cons, ih, toList_step]

end

namespace Of

variable {kind : EntityKind}

def listing (r : Of kind) : Listing kind := ⟨r.val.frozen, r.store.toList⟩

theorem policy_after (r : Of kind) (c : Change kind) : (r.after c).val.policy = r.val.policy := by
  obtain ⟨r, rfl⟩ := r
  exact r.policy_after c

theorem id_after (r : Of kind) (c : Change kind) : (r.after c).val.id = r.val.id := by
  obtain ⟨r, rfl⟩ := r
  exact r.id_after c

theorem apply_eq_error_iff (r : Of kind) (c : Change kind) (e : RegistryError) :
    r.apply c = .error e ↔ r.val.frozen = true ∧ (∃ step, c = .direct step) ∧ e = .frozen r.val.id := by
  obtain ⟨r, rfl⟩ := r
  cases c with
  | direct step =>
    simp only [apply, Registry.apply, take_eq]
    cases r.frozen <;> simp [eq_comm]
  | _ => simp [apply, Registry.apply]

theorem listing_eq {r r' : Registry} (hk : r'.kind = r.kind) {store : Store (Element r.kind)}
    (h : r' = { r with store }) : listing ⟨r', hk⟩ = ⟨r.frozen, store.toList⟩ := by
  subst h
  rfl

theorem listing_after (r : Of kind) (c : Change kind) : (r.after c).listing = r.listing.after r.val.policy c := by
  obtain ⟨r, rfl⟩ := r
  cases c with
  | direct step =>
    have h := r.after_direct step
    by_cases hf : r.frozen = true
    · rw [if_pos hf] at h
      exact (listing_eq (r.kind_after _) h).trans (if_pos hf).symm
    · rw [if_neg hf] at h
      rw [Bool.not_eq_true] at hf
      refine (listing_eq (r.kind_after _) h).trans ?_
      simp only [Listing.after, listing, hf, toList_step]
      rfl
  | freeze => rfl
  | unfreeze => rfl
  | upsert e => exact congrArg (Listing.mk true) (toList_file r.policy r.store e.id e)
  | replaceAll es => exact congrArg (Listing.mk true) (toList_fileAll r.policy .empty es)
  | transaction steps => exact congrArg (Listing.mk true) (toList_steps r.policy r.store steps)

theorem id_run (r : Of kind) (cs : List (Change kind)) : (r.run cs).val.id = r.val.id := by
  induction cs generalizing r with
  | nil => rfl
  | cons c cs ih => exact (ih (r.after c)).trans (r.id_after c)

theorem listing_run (r : Of kind) (cs : List (Change kind)) :
    (r.run cs).listing = cs.foldl (Listing.after r.val.policy) r.listing := by
  induction cs generalizing r with
  | nil => rfl
  | cons c cs ih =>
    rw [run, List.foldl_cons, List.foldl_cons, ← listing_after, ← policy_after r c]
    exact ih (r.after c)

end Of

/-- A store agrees with a list of pairs: the list repeats no id and no value,
the four records hold it, and every look-up reads it. -/
structure Agrees {kind : EntityKind} (store : Store (Element kind)) (l : List (String × Element kind)) : Prop where
  represents : store.index.Represents l
  get? : ∀ id e, store.get? id = some e ↔ (id, e) ∈ l
  idOf? : ∀ e id, store.idOf? e = some id ↔ (id, e) ∈ l
  slot? : ∀ i, store.slot? i = (Entries.values l)[i]?
  indexOf? : ∀ e i, store.indexOf? e = some i ↔ (Entries.values l)[i]? = some e
  size : store.size = l.length
  values : store.values = Entries.values l

theorem agrees {kind : EntityKind} (store : Store (Element kind)) : Agrees store store.toList where
  represents := store.represents
  get? _ _ := store.get?_eq_some_iff
  idOf? _ _ := store.idOf?_eq_some_iff
  slot? := store.slot?_eq
  indexOf? _ _ := store.indexOf?_eq_some_iff
  size := store.size_eq
  values := store.values_eq

theorem Agrees.indexOf?_lt {kind : EntityKind} {store : Store (Element kind)} {l : List (String × Element kind)}
    (h : Agrees store l) (i : Nat) : (∃ e, store.indexOf? e = some i) ↔ i < l.length := by
  have hl : (Entries.values l).length = l.length := List.length_map _
  rw [← hl]
  constructor
  · rintro ⟨e, he⟩
    exact (List.getElem?_eq_some_iff.1 ((h.indexOf? e i).1 he)).1
  · intro hi
    exact ⟨_, (h.indexOf? _ i).2 (List.getElem?_eq_getElem hi)⟩

/-- **Refinement.** A registry that starts empty is the listing that its
changes make: it is frozen when the listing is, its store agrees with the
entries, a frozen registry refuses exactly the steps outside of transactions,
looking up by id and by value are inverse to each other, and the slots are the
numbers below the length. -/
theorem run_agrees (id : String) (kind : EntityKind) (policy : Policy) (h : policy = .descendingOrderId → kind = .order)
    (cs : List (Change kind)) :
    let r := (Of.empty id policy h).run cs
    let s := Listing.run policy cs
    r.val.frozen = s.frozen ∧ Agrees r.store s.entries ∧
      (∀ c e, r.apply c = .error e ↔ s.frozen = true ∧ (∃ step, c = .direct step) ∧ e = .frozen id) ∧
      (∀ elementId e, r.store.get? elementId = some e ↔ r.store.idOf? e = some elementId) ∧
      (∀ i, (∃ e, r.store.indexOf? e = some i) ↔ i < s.entries.length) := by
  intro r s
  have hs : r.listing = s := (Of.empty id policy h).listing_run cs
  have hid : r.val.id = id := (Of.empty id policy h).id_run cs
  have hagrees : Agrees r.store s.entries := hs ▸ agrees r.store
  refine ⟨congrArg (·.frozen) hs, hagrees, ?_, ?_, hagrees.indexOf?_lt⟩
  · intro c e
    rw [r.apply_eq_error_iff, hid, ← hs]
    rfl
  · intro elementId e
    rw [hagrees.get?, hagrees.idOf?]

/-- A value that is filed again under another id moves to the end, and a frozen
registry keeps what it has. -/
theorem run_agrees_moved :
    let shot : Element .menuOption := ⟨.menuOption ⟨"shot", "Extra shot", 500⟩, rfl⟩
    let ice : Element .menuOption := ⟨.menuOption ⟨"ice", "No ice", 0⟩, rfl⟩
    let r := (Of.empty "options" .replaceById nofun).run [.direct (.add "a" shot), .direct (.add "b" ice),
      .direct (.add "c" shot), .freeze, .direct (.remove "b"), .transaction [.add "d" ice, .remove "a"]]
    r.val.frozen = true ∧ Agrees r.store [("c", shot), ("d", ice)] :=
  have h := run_agrees "options" .menuOption .replaceById nofun _
  ⟨h.1, h.2.1⟩

end OrderDesk.Registry
