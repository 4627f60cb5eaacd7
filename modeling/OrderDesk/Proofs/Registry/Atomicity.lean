import OrderDesk.Proofs.Registry.Operations

/-!
# All or nothing

An operation on a registry is a routine of checks and writes. A routine that
fails midway keeps what it has written by then; those of a registry check
before they write, so a refused operation leaves no trace. Main result:
`perform_atomic`.
-/

namespace OrderDesk.Registry

/-- What routines write on. -/
structure Interior (kind : EntityKind) where
  frozen : Bool
  store : Store (Element kind)

def interior (r : Registry) : Interior r.kind := ⟨r.frozen, r.store⟩

def hold (r : Registry) (x : Interior r.kind) : Registry := { r with frozen := x.frozen, store := x.store }

/-- Steps that come one after the other until one fails. What the steps before
it wrote stays. -/
abbrev Routine (kind : EntityKind) : Type → Type := ExceptT RegistryError (StateM (Interior kind))

namespace Routine

variable {kind : EntityKind} {α β : Type}

def runFrom (m : Routine kind α) (x : Interior kind) : Except RegistryError α × Interior kind := (m.run.run x).run

/-! ## The routines of a registry -/

section
variable (id : String) (policy : Policy)

def demandUnfrozen : Routine kind Unit := do
  if (← get).frozen then throw (.frozen id)

def checkKind (e : Entity) : Routine kind (Element kind) :=
  match Element.ofEntity? kind e with
  | some e => pure e
  | none => throw (.typeMismatch id kind e.kind)

def rewrite (f : Store (Element kind) → Store (Element kind)) : Routine kind Unit :=
  modify fun x => { x with store := f x.store }

def setFrozen (frozen : Bool) : Routine kind Unit := modify fun x => { x with frozen }

def ofStep : Step kind → Routine kind Unit
  | .add proposed e => rewrite (file policy · proposed e)
  | .addAll es => es.forM fun e => rewrite (file policy · e.id e)
  | .remove elementId => rewrite (·.erase elementId)
  | .clear => rewrite fun _ => .empty

def ofChange : Change kind → Routine kind Unit
  | .direct step => do
    demandUnfrozen id
    ofStep policy step
  | .freeze => setFrozen true
  | .unfreeze => setFrozen false
  | .upsert e => do
    ofStep policy (.add e.id e)
    setFrozen true
  | .replaceAll es => do
    ofStep policy .clear
    ofStep policy (.addAll es)
    setFrozen true
  | .transaction steps => do
    steps.forM (ofStep policy)
    setFrozen true

def ofOperation : Operation kind → Routine kind Unit
  | .change c => ofChange id policy c
  | .addEntity proposed e => do
    let e ← checkKind id e
    ofChange id policy (.direct (.add proposed e))
  | .addEntities es => do
    let es ← es.mapM (checkKind id)
    ofChange id policy (.direct (.addAll es))
  | .replaceEntities es => do
    let es ← es.mapM (checkKind id)
    ofChange id policy (.replaceAll es)
  | .upsertEntity e => do
    let e ← checkKind id e
    ofChange id policy (.upsert e)
  | .evict elementId => do
    ofStep policy (.remove elementId)
    setFrozen true

end

/-! ## What they do -/

variable {id : String} {policy : Policy} {x : Interior kind}

theorem runFrom_bind (m : Routine kind α) (f : α → Routine kind β) (x : Interior kind) :
    (m >>= f).runFrom x =
      match m.runFrom x with
      | (.ok a, y) => (f a).runFrom y
      | (.error e, y) => (.error e, y) := by
  simp only [runFrom, ExceptT.run_bind, StateT.run_bind, Id.run_bind]
  rcases (m.run.run x).run with ⟨_ | a, y⟩ <;> rfl

theorem runFrom_demandUnfrozen :
    (demandUnfrozen id).runFrom x = (if x.frozen then .error (.frozen id) else .ok (), x) := by
  have hget : (get : Routine kind (Interior kind)).runFrom x = (.ok x, x) := rfl
  rw [demandUnfrozen, runFrom_bind, hget]
  dsimp only
  split <;> rfl

theorem runFrom_rewrite (f : Store (Element kind) → Store (Element kind)) (x : Interior kind) :
    (rewrite f).runFrom x = (.ok (), { x with store := f x.store }) := rfl

theorem runFrom_forM {f : α → Routine kind Unit} {g : Store (Element kind) → α → Store (Element kind)}
    (h : ∀ a x, (f a).runFrom x = (.ok (), { x with store := g x.store a })) (as : List α) (x : Interior kind) :
    (as.forM f).runFrom x = (.ok (), { x with store := as.foldl g x.store }) := by
  induction as generalizing x with
  | nil => rfl
  | cons a as ih =>
    have hforM : (a :: as).forM f = (f a >>= fun _ => as.forM f) := rfl
    rw [hforM, runFrom_bind, h]
    exact ih _

theorem runFrom_ofStep (step : Step kind) (x : Interior kind) :
    (ofStep policy step).runFrom x = (.ok (), { x with store := step.run policy x.store }) := by
  cases step with
  | addAll es => exact runFrom_forM (fun _ => runFrom_rewrite _) es x
  | add | remove | clear => rfl

/-- Checks that write nothing, one after the other, write nothing. -/
theorem runFrom_mapM {f : α → Routine kind β} {g : α → Except RegistryError β} (h : ∀ a, (f a).runFrom x = (g a, x))
    (as : List α) : (as.mapM f).runFrom x = (as.mapM g, x) := by
  induction as with
  | nil => rfl
  | cons a as ih =>
    rw [List.mapM_cons, List.mapM_cons, runFrom_bind, h]
    cases g a with
    | error e => rfl
    | ok b =>
      dsimp only
      rw [runFrom_bind, ih]
      cases as.mapM g <;> rfl

end Routine

theorem runFrom_checkKind (r : Registry) (e : Entity) :
    (Routine.checkKind r.id e).runFrom r.interior = (r.element e, r.interior) := by
  unfold Routine.checkKind element
  cases Element.ofEntity? r.kind e <;> rfl

/-! ## Carrying an operation out -/

/-- The registry after a routine, and how the routine ended. -/
def execute (r : Registry) (m : Routine r.kind Unit) : Registry × Except RegistryError Unit :=
  (r.hold (m.runFrom r.interior).2, (m.runFrom r.interior).1)

def carryOut (r : Registry) (op : Operation r.kind) : Registry × Except RegistryError Unit :=
  r.execute (Routine.ofOperation r.id r.policy op)

/-- All of an outcome, or nothing. -/
def settled (r : Registry) : Except RegistryError Registry → Registry × Except RegistryError Unit
  | .ok r' => (r', .ok ())
  | .error e => (r, .error e)

theorem execute_change (r : Registry) (c : Change r.kind) :
    r.execute (Routine.ofChange r.id r.policy c) = r.settled (r.apply c) := by
  unfold execute
  cases c with
  | direct step =>
    rw [apply, take_eq, Routine.ofChange, Routine.runFrom_bind, Routine.runFrom_demandUnfrozen, interior]
    by_cases hf : r.frozen = true
    · rw [if_pos hf, if_pos hf]
      rfl
    · rw [if_neg hf, if_neg hf]
      dsimp only
      rw [Routine.runFrom_ofStep]
      rfl
  | freeze | unfreeze | upsert => rfl
  | replaceAll es =>
    rw [Routine.ofChange, Routine.runFrom_bind, Routine.runFrom_ofStep]
    dsimp only
    rw [Routine.runFrom_bind, Routine.runFrom_ofStep]
    rfl
  | transaction steps =>
    rw [Routine.ofChange, Routine.runFrom_bind, Routine.runFrom_forM Routine.runFrom_ofStep]
    rfl

theorem execute_checked {α : Type} (r : Registry) {m : Routine r.kind α} {checked : Except RegistryError α}
    (h : m.runFrom r.interior = (checked, r.interior)) (f : α → Change r.kind) :
    r.execute (m >>= fun a => Routine.ofChange r.id r.policy (f a)) = r.settled (f <$> checked >>= r.apply) := by
  rw [execute, Routine.runFrom_bind, h]
  cases checked with
  | error e => rfl
  | ok a => exact r.execute_change (f a)

/-- Step by step or at once, the outcome is the same. -/
theorem carryOut_eq (r : Registry) (op : Operation r.kind) : r.carryOut op = r.settled (r.perform op) := by
  have hone := r.runFrom_checkKind
  have hall := Routine.runFrom_mapM r.runFrom_checkKind
  rw [perform_eq]
  cases op with
  | change c => exact r.execute_change c
  | addEntity id e => exact r.execute_checked (hone e) fun e => .direct (.add id e)
  | addEntities es => exact r.execute_checked (hall es) fun es => .direct (.addAll es)
  | replaceEntities es => exact r.execute_checked (hall es) .replaceAll
  | upsertEntity e => exact r.execute_checked (hone e) .upsert
  | evict id => rfl

/-- An operation that is refused leaves the registry as it was, also when it
is carried out step by step. Which operations are refused: those with an entity
of another kind, for the first such entity and whether frozen or not, and those
that are guarded, if the registry is frozen. A forced operation that is not
refused leaves the registry frozen. -/
theorem perform_atomic (r : Registry) (op : Operation r.kind) :
    r.carryOut op = r.settled (r.perform op) ∧
      (∀ e, (r.carryOut op).2 = .error e → (r.carryOut op).1 = r) ∧
      (∀ e, r.perform op = .error e ↔
        (∃ x, op.unchecked.find? (·.kind ≠ r.kind) = some x ∧ e = .typeMismatch r.id r.kind x.kind) ∨
          (∀ x ∈ op.unchecked, x.kind = r.kind) ∧ op.isGuarded = true ∧ r.frozen = true ∧ e = .frozen r.id) ∧
      ((∀ x ∈ op.unchecked, x.kind = r.kind) →
        (op.isGuarded = true → ((∃ e, r.perform op = .error e) ↔ r.frozen = true)) ∧
          (op.isForced = true → ∃ r', r.perform op = .ok r' ∧ r'.frozen = true)) := by
  refine ⟨r.carryOut_eq op, fun e he => ?_, fun e => perform_eq_error_iff, fun hkinds => ⟨fun hguarded => ?_,
    fun hforced => exists_perform_forced hforced hkinds⟩⟩
  · rw [carryOut_eq] at he ⊢
    cases hout : r.perform op with
    | ok r' =>
      rw [hout] at he
      cases he
    | error e' => rfl
  · constructor
    · rintro ⟨e, he⟩
      obtain ⟨x, hx, -⟩ | ⟨-, -, hfrozen, -⟩ := perform_eq_error_iff.1 he
      · rw [find?_eq_none_iff.2 hkinds] at hx
        cases hx
      · exact hfrozen
    · intro hfrozen
      exact ⟨_, perform_eq_error_iff.2 (.inr ⟨hkinds, hguarded, hfrozen, rfl⟩)⟩

def shelf : Registry :=
  (empty "options" .menuOption .replaceById nofun).upsert ⟨.menuOption ⟨"shot", "Extra shot", 500⟩, rfl⟩

def delivery : List Entity := [.menuOption ⟨"ice", "No ice", 0⟩, .menuOption ⟨"oat", "Oat milk", 300⟩]

/-- A wrong entity at the end of a batch spoils it all; the frozen registry says
so first, and does not say that it is frozen. -/
theorem perform_atomic_spoilt :
    let stray : Entity := .order ⟨1, "Ada", 0, .pending, ⟨[]⟩⟩
    shelf.frozen = true ∧
      shelf.carryOut (.addEntities (delivery ++ [stray])) =
        (shelf, .error (.typeMismatch "options" .menuOption .order)) ∧
      shelf.carryOut (.addEntities delivery) = (shelf, .error (.frozen "options")) ∧
      ∃ r', shelf.perform (.replaceEntities delivery) = .ok r' ∧ r'.frozen = true := by
  intro stray
  have hkinds : ∀ x ∈ delivery, x.kind = shelf.kind := by decide
  obtain ⟨hspoilt, -, hmismatch, -⟩ := perform_atomic shelf (.addEntities (delivery ++ [stray]))
  obtain ⟨hrefused, -, hfrozen, -⟩ := perform_atomic shelf (.addEntities delivery)
  obtain ⟨-, -, -, hforced⟩ := perform_atomic shelf (.replaceEntities delivery)
  rw [(hmismatch _).2 (.inl ⟨stray, rfl, rfl⟩)] at hspoilt
  rw [(hfrozen _).2 (.inr ⟨hkinds, rfl, rfl, rfl⟩)] at hrefused
  exact ⟨rfl, hspoilt, hrefused, (hforced hkinds).2 rfl⟩

end OrderDesk.Registry
