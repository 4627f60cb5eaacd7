import OrderDesk.Proofs.Redelivery
import OrderDesk.Proofs.Registry.Transactions
import OrderDesk.Proofs.Server.Submission

/-!
# Filing under own ids

What a packet makes a node do to its registries is a list of transactions, and
each of them files entities under their own ids. Registries that own their ids
go on to do so, whatever comes in. Main result: `files_under_own_ids`.
-/

namespace OrderDesk

/-! ## The transactions of a write -/

namespace Directory

variable {d : Directory}

/-- Taking up an entity, if there is a registry for it and it has the kind. -/
def upserts (r? : Option Registry) (x : Entity) : List Transaction :=
  match r? with
  | none => []
  | some r =>
    match r.element x with
    | .error _ => []
    | .ok e => [.upsert r e]

def loads (d : Directory) (snapshot : ResponseData) : List Transaction :=
  match d.get? snapshot.registryId with
  | none => []
  | some r =>
    match r.elements snapshot.entities with
    | .error _ => []
    | .ok es => [.replaceAll r es]

def cascades (d : Directory) : Registry.Cascade → List Transaction
  | .none => []
  | .strip menuId => (d.categories?.map (Transaction.stripMenu · menuId)).toList
  | .drop category => (d.menus?.map fun r => Transaction.removeAll r (Registry.menusOf r.store category)).toList

/-- The cascade comes after the entity is gone. -/
def deletes (d : Directory) (registryId entityId : String) : List Transaction :=
  match d.get? registryId with
  | none => []
  | some r => .removeAll r [entityId] :: (d.set (r.evict entityId)).cascades (r.view.cascade entityId)

theorem upserts_entity (r : Registry) (e : Element r.kind) : upserts (some r) e.entity = [.upsert r e] := by
  simp only [upserts, Registry.element, Element.ofEntity?_entity]

theorem runs_upserts {r? : Option Registry} {f : Directory → Except RegistryError Registry}
    (hf : ∀ r, f d = .ok r ↔ r? = some r) (hget : ∀ r, r? = some r → d.get? r.id = some r) (x : Entity) :
    d.Runs (upserts r? x) (d.after (upsertIn f x)) := by
  rw [after, upsertIn]
  cases r? with
  | none =>
    cases hr : f d with
    | error e => exact .nil d
    | ok r => cases (hf r).1 hr
  | some r =>
    rw [(hf r).2 rfl, upserts]
    show d.Runs _ ((d.set <$> r.upsertEntity x).toOption.getD d)
    rw [Registry.upsertEntity]
    cases r.element x with
    | error e => exact .nil d
    | ok e => exact Runs.single (t := .upsert r e) (hget r rfl)

theorem runs_loads (d : Directory) (snapshot : ResponseData) : d.Runs (d.loads snapshot) (d.after (·.load snapshot)) := by
  rw [after, load, require, loads]
  cases hr : d.get? snapshot.registryId with
  | none => exact .nil d
  | some r =>
    show d.Runs _ ((d.set <$> r.replaceEntities snapshot.entities).toOption.getD d)
    rw [Registry.replaceEntities]
    dsimp only
    cases r.elements snapshot.entities with
    | error e => exact .nil d
    | ok es => exact Runs.single (t := .replaceAll r es) (get?_self hr)

theorem runs_cascades (x : Deletion) (c : Registry.Cascade) :
    x.directory.Runs (x.directory.cascades c) (x.through c).directory := by
  cases c with
  | none => exact .nil _
  | strip menuId =>
    show x.directory.Runs _ (x.stripMenu menuId).directory
    rw [cascades, Deletion.stripMenu]
    cases hr : x.directory.categories? with
    | none => exact .nil _
    | some r => exact Runs.single (t := .stripMenu r menuId) (get?_self (typed?_eq_some_iff.1 hr).1)
  | drop category =>
    show x.directory.Runs _ (x.dropMenusOf category).directory
    rw [cascades, Deletion.dropMenusOf]
    cases hr : x.directory.menus? with
    | none => exact .nil _
    | some r =>
      have hruns := Runs.single (t := .removeAll r (Registry.menusOf r.store category))
        (get?_self (typed?_eq_some_iff.1 hr).1)
      rwa [Transaction.result_removeAll] at hruns

theorem runs_deletes (d : Directory) (registryId entityId : String) :
    d.Runs (d.deletes registryId entityId) (d.after fun d => (d.delete registryId entityId).map (·.directory)) := by
  rw [deletes]
  cases hr : d.get? registryId with
  | none =>
    have hfails : d.delete registryId entityId = .error (.unknownRegistry registryId) := by
      rw [delete, require, hr]
      rfl
    rw [after, hfails]
    exact .nil d
  | some r =>
    rw [after, delete_eq hr]
    exact .cons (t := .removeAll r [entityId]) (get?_self hr)
      (runs_cascades ((Deletion.start d).evict r entityId) (r.view.cascade entityId))

end Directory

/-! ## The transactions of a packet -/

namespace Server

def transactions (s : Server) : Packet → List Transaction
  | .responseData snapshot => if snapshot.registryId = RegistryId.orders then [] else s.directory.loads snapshot
  | .dataAdded added => Directory.upserts (s.directory.get? added.registryId) added.entity
  | .dataDeleted deleted => s.directory.deletes deleted.registryId deleted.entityId
  | .orderStatusChanged changed =>
    if changed.order.isUnassigned ∧ s.nextOrderId = Int64.maxValue then []
    else Directory.upserts s.directory.orders? (.order (s.canonical changed.order))
  | _ => []

theorem runs_submission (s : Server) (sender : ConnectionId) (o : Order) :
    s.directory.Runs (s.transactions (submission o)) (s.handle sender (submission o)).1.directory := by
  rw [transactions]
  cases hr : s.directory.orders? with
  | none =>
    have hrefused : s.handle sender (submission o) = s.refuse (.unknownRegistry RegistryId.orders) := by
      show s.takeOrder sender o = _
      rw [takeOrder, hr]
    rw [hrefused]
    split <;> exact .nil _
  | some orders =>
    rcases handle_submission hr sender o with ⟨hmax, heq⟩ | ⟨hmax, n, e, he, heq⟩
    · rw [if_pos hmax, heq]
      exact .nil _
    · rw [if_neg hmax, heq, ← he, Directory.upserts_entity]
      exact Directory.Runs.single (t := .upsert orders e)
        (Directory.get?_self (Directory.orders?_eq_some_iff.1 hr).1)

theorem runs_handle (s : Server) (sender : ConnectionId) (p : Packet) :
    s.directory.Runs (s.transactions p) (s.handle sender p).1.directory := by
  cases p with
  | responseData snapshot =>
    show s.directory.Runs _ (s.takeSnapshot sender snapshot).1.directory
    rw [(s.takeSnapshot_writes sender snapshot).1, transactions, write]
    split
    · exact .nil _
    · exact s.directory.runs_loads snapshot
  | dataAdded added =>
    show s.directory.Runs _ (s.takeAdded added).1.directory
    rw [(s.takeAdded_writes added).1]
    exact Directory.runs_upserts (f := (·.require added.registryId)) (fun r => Directory.require_eq_ok_iff)
      (fun r => Directory.get?_self) added.entity
  | dataDeleted deleted =>
    show s.directory.Runs _ (s.takeDeleted deleted).1.directory
    rw [(s.takeDeleted_writes deleted).1]
    exact s.directory.runs_deletes deleted.registryId deleted.entityId
  | orderStatusChanged changed => exact s.runs_submission sender changed.order
  | handShake | hello | keyExchange | encryptComplete | requestData | orderUpdated => exact .nil _

end Server

namespace Kiosk

def transactions (k : Kiosk) : Packet → List Transaction
  | .responseData snapshot => k.directory.loads snapshot
  | .orderStatusChanged changed => Directory.upserts k.directory.orders? (.order changed.order)
  | .orderUpdated updated => Directory.upserts k.directory.orders? (.order updated.order)
  | _ => []

theorem runs_handle (k : Kiosk) (p : Packet) : k.directory.Runs (k.transactions p) (k.handle p).1.directory := by
  have horder : ∀ x, k.directory.Runs (Directory.upserts k.directory.orders? x)
      (k.directory.after (Directory.upsertIn Directory.requireOrders x)) :=
    Directory.runs_upserts (fun r => Directory.requireOrders_eq_ok_iff) fun r hr =>
      Directory.get?_self (Directory.orders?_eq_some_iff.1 hr).1
  rw [directory_handle]
  cases p with
  | responseData snapshot => exact k.directory.runs_loads snapshot
  | orderStatusChanged changed => exact horder (.order changed.order)
  | orderUpdated updated => exact horder (.order updated.order)
  | handShake | hello | keyExchange | encryptComplete | requestData | dataAdded | dataDeleted => exact .nil _

end Kiosk

/-! ## Own ids -/

/-- Transactions that lead to a directory whose registries own their ids, so that
no two entities in one have the same id. On the way nothing is evicted, and so
every filing just puts its entity in place. -/
structure Directory.FilesOwn (d : Directory) (ts : List Transaction) (d' : Directory) : Prop where
  runs : d.Runs ts d'
  evicted : ∀ t ∈ ts, t.evicted = []
  plain : ∀ t ∈ ts, t.result.store.index = t.plain
  own : ∀ r ∈ d'.registries, r.Own
  distinct : ∀ r ∈ d'.registries, (r.snapshot.map (·.elementId)).Nodup

theorem Directory.Runs.filesOwn {d d' : Directory} {ts : List Transaction} (h : d.Runs ts d')
    (hown : ∀ r ∈ d.registries, r.Own) : d.FilesOwn ts d' := by
  obtain ⟨hown', hevicted⟩ := h.own hown
  exact ⟨h, hevicted, fun t ht => Transaction.index_result (hevicted t ht), hown',
    fun r hr => (hown' r hr).nodup_snapshot⟩

/-- **Own ids.** Where every registry files its entities under their own ids, it
still does after any packet, taken or refused, at the server and at a kiosk. No
entity is filed while an equal one is there under another id. -/
theorem files_under_own_ids :
    (∀ (s : Server) (sender : ConnectionId) (p : Packet), (∀ r ∈ s.directory.registries, r.Own) →
      s.directory.FilesOwn (s.transactions p) (s.handle sender p).1.directory) ∧
    ∀ (k : Kiosk) (p : Packet), (∀ r ∈ k.directory.registries, r.Own) →
      k.directory.FilesOwn (k.transactions p) (k.handle p).1.directory :=
  ⟨fun s sender p hown => (s.runs_handle sender p).filesOwn hown, fun k p hown => (k.runs_handle p).filesOwn hown⟩

/-- A menu is deleted, which takes two transactions, and a snapshot brings the
same id twice. -/
theorem files_under_own_ids_repeated :
    let s := Server.start .counter
    let k := Kiosk.start .counter
    let gone := Packet.dataDeleted ⟨RegistryId.menus, "latte"⟩
    let dearer : Menu := { Directory.latte with price := 5000 }
    let repeated := Packet.responseData ⟨RegistryId.menus, [.menu Directory.latte, .menu Directory.tea, .menu dearer]⟩
    (∀ r ∈ Directory.counter.registries, r.Own) ∧
      (s.transactions gone).map (·.registry.id) = [RegistryId.menus, RegistryId.categories] ∧
      s.directory.FilesOwn (s.transactions gone) (s.handle ⟨1⟩ gone).1.directory ∧
      k.directory.FilesOwn (k.transactions repeated) (k.handle repeated).1.directory :=
  ⟨Directory.own_counter, rfl, files_under_own_ids.1 (.start .counter) ⟨1⟩ (.dataDeleted _) Directory.own_counter,
    files_under_own_ids.2 (.start .counter) (.responseData _) Directory.own_counter⟩

end OrderDesk
