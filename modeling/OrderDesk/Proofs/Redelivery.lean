import OrderDesk.Client.Packets
import OrderDesk.Proofs.Registry.Deletion
import OrderDesk.Proofs.Server.Run

/-!
# Packets that come twice

Nothing keeps a packet from being delivered again. A packet that is handled a
second time, right after the first, finds that everything it asks for is so
already. Only an order without a number is another order every time.
-/

namespace OrderDesk

/-! ## Deleting again -/

namespace Registry

theorem Cascade.leaves_leaves (c : Cascade) (l : List (String × Entity)) : c.leaves (c.leaves l) = c.leaves l := by
  cases c with
  | none => rfl
  | strip menuId =>
    rw [leaves, leaves, List.map_map]
    refine List.map_congr_left fun p _ => ?_
    cases hp : p.2 with
    | category c => simp [hp, Entity.withoutMenu]
    | order | menu | menuOption | optionGroup => simp [hp, Entity.withoutMenu]
  | drop category => simp [leaves]

namespace View

variable {owner v : View} {id : String} {g : List (String × Entity) → List (String × Entity)}

theorem transact_transact (v : View) (hg : ∀ l, g (g l) = g l) : (v.transact g).transact g = v.transact g := by
  rw [transact, transact, hg]

theorem reached_reached (c : Cascade) (v : View) : (v.reached c).reached c = v.reached c := by
  unfold reached
  split
  · next hv =>
    rw [if_pos ((Cascade.reaches_transact _).2 hv)]
    exact v.transact_transact c.leaves_leaves
  · rfl

theorem category?_transact_remove (owner : View) (id : String) :
    (owner.transact (Entries.remove id)).category? id = none := by
  have hfind : (Entries.remove id owner.entries).find? (·.1 = id) = none := by simp [Entries.remove]
  rw [category?, transact, hfind]
  rfl

/-- Deleting again has no cascade or the same. -/
theorem cascade_transact_remove (owner : View) (id : String) :
    (owner.transact (Entries.remove id)).cascade id = .none ∨
      (owner.transact (Entries.remove id)).cascade id = owner.cascade id := by
  have hkind : (owner.transact (Entries.remove id)).kind = owner.kind := rfl
  rw [cascade, category?_transact_remove, hkind, cascade]
  cases owner.kind with
  | category => exact .inl rfl
  | order | menu | menuOption | optionGroup => exact .inr rfl

theorem left_left (owner v : View) (id : String) : left (left owner id owner) id (left owner id v) = left owner id v := by
  have howner : left owner id owner = owner.transact (Entries.remove id) := if_pos rfl
  have hid : (owner.transact (Entries.remove id)).id = owner.id := rfl
  rw [howner, left, hid]
  by_cases hv : v.id = owner.id
  · have hleft : left owner id v = v.transact (Entries.remove id) := if_pos hv
    rw [hleft]
    exact (if_pos hv).trans (v.transact_transact (Entries.remove_remove · id))
  · have hleft : left owner id v = v.reached (owner.cascade id) := if_neg hv
    have hsame : (v.reached (owner.cascade id)).id = v.id := by
      unfold reached
      split <;> rfl
    rw [hleft, if_neg (hsame ▸ hv)]
    rcases owner.cascade_transact_remove id with hnone | hcascade
    · rw [hnone]
      exact if_neg not_false
    · rw [hcascade]
      exact v.reached_reached _

end View

end Registry

/-! ## Writes -/

namespace Directory

variable {d : Directory} {w : Directory → Except RegistryError Directory}

/-- The directory after a write, which may fail. -/
def after (d : Directory) (w : Directory → Except RegistryError Directory) : Directory := (w d).toOption.getD d

/-- A write that finds its own work done. -/
def Lasting (w : Directory → Except RegistryError Directory) : Prop :=
  ∀ d, (∀ r ∈ d.registries, r.Own) → ∀ d', w d = .ok d' → ∃ d'', w d' = .ok d'' ∧ d''.views = d'.views

theorem after_ok {d' : Directory} (h : w d = .ok d') : d.after w = d' := by
  rw [after, h]
  rfl

theorem after_error {e : RegistryError} (h : w d = .error e) : d.after w = d := by
  rw [after, h]
  rfl

theorem Lasting.after_after (hw : Lasting w) (hown : ∀ r ∈ d.registries, r.Own) :
    ((d.after w).after w).views = (d.after w).views := by
  cases h : w d with
  | error e => rw [after_error h, after_error h]
  | ok d' =>
    obtain ⟨d'', hagain, hviews⟩ := hw d hown d' h
    rw [after_ok h, after_ok hagain, hviews]

theorem lasting_ok : Lasting .ok := by
  intro d _ d' h
  cases h
  exact ⟨d, rfl, rfl⟩

theorem lasting_load (snapshot : ResponseData) : Lasting (·.load snapshot) := by
  intro d _ d' h
  obtain ⟨r, hr, es, hes, rfl⟩ := load_eq_ok h
  have hget : (d.set (r.replaceAll es)).get? snapshot.registryId = some (r.replaceAll es) := get?_set_self hr
  refine ⟨(d.set (r.replaceAll es)).set ((r.replaceAll es).replaceAll es), ?_, views_set (get?_self hget) rfl rfl⟩
  show load _ snapshot = _
  rw [load, require_eq_ok_iff.2 hget, ← hes]
  exact congrArg ((d.set (r.replaceAll es)).set <$> ·) ((r.replaceAll es).replaceEntities_entities es)

/-- Taking up an entity in the registry that is found. -/
def upsertIn (f : Directory → Except RegistryError Registry) (x : Entity) (d : Directory) :
    Except RegistryError Directory := do
  let r ← f d
  d.set <$> r.upsertEntity x

theorem lasting_upsertIn {f : Directory → Except RegistryError Registry}
    (hget : ∀ d r, f d = .ok r → d.get? r.id = some r)
    (hkeeps : ∀ d r, f d = .ok r → ∀ g, f (d.set (r.transact g)) = .ok (r.transact g)) (x : Entity) :
    Lasting (upsertIn f x) := by
  intro d _ d' h
  cases hr : f d with
  | error e =>
    rw [upsertIn, hr] at h
    cases h
  | ok r =>
    cases hr' : r.upsertEntity x with
    | error e =>
      rw [upsertIn, hr] at h
      change d.set <$> r.upsertEntity x = _ at h
      rw [hr'] at h
      cases h
    | ok r' =>
      rw [upsertIn, hr] at h
      change d.set <$> r.upsertEntity x = _ at h
      rw [hr'] at h
      obtain ⟨e, rfl, rfl⟩ := Registry.upsertEntity_eq_ok hr'
      cases h
      have hfound : f (d.set (r.upsert e)) = .ok (r.upsert e) := hkeeps d r hr _
      refine ⟨(d.set (r.upsert e)).set ((r.upsert e).upsert e), ?_,
        views_set (hget _ _ hfound) rfl (r.view_upsert_upsert e)⟩
      rw [upsertIn, hfound]
      exact congrArg ((d.set (r.upsert e)).set <$> ·) ((r.upsert e).upsertEntity_entity e)

theorem lasting_upsert (registryId : String) (x : Entity) : Lasting (·.upsert registryId x) := by
  refine lasting_upsertIn (f := (·.require registryId)) ?_ ?_ x
  · intro d r hr
    exact get?_self (require_eq_ok_iff.1 hr)
  · intro d r hr f
    exact require_eq_ok_iff.2 (get?_set_self (require_eq_ok_iff.1 hr))

def requireOrders (d : Directory) : Except RegistryError Registry :=
  match d.orders? with
  | some r => .ok r
  | none => .error (.unknownRegistry RegistryId.orders)

theorem requireOrders_eq_ok_iff {r : Registry} : d.requireOrders = .ok r ↔ d.orders? = some r := by
  unfold requireOrders
  split
  · next h => simp [h]
  · next h => simp [h]

theorem lasting_upsertOrder (x : Entity) : Lasting (upsertIn requireOrders x) := by
  refine lasting_upsertIn ?_ ?_ x
  · intro d r hr
    exact get?_self (orders?_eq_some_iff.1 (requireOrders_eq_ok_iff.1 hr)).1
  · intro d r hr f
    obtain ⟨hget, htype⟩ := orders?_eq_some_iff.1 (requireOrders_eq_ok_iff.1 hr)
    exact requireOrders_eq_ok_iff.2 (orders?_eq_some_iff.2 ⟨get?_set_self hget, htype⟩)

theorem lasting_delete (registryId entityId : String) :
    Lasting fun d => (d.delete registryId entityId).map (·.directory) := by
  intro d hown d' h
  change (d.delete registryId entityId).map _ = _ at h
  cases hx : d.delete registryId entityId with
  | error e =>
    rw [hx] at h
    cases h
  | ok x =>
    rw [hx] at h
    cases h
    obtain ⟨r, hr⟩ : ∃ r, d.get? registryId = some r := by
      cases hr : d.require registryId with
      | ok r => exact ⟨r, require_eq_ok_iff.1 hr⟩
      | error e =>
        rw [delete, hr] at hx
        cases hx
    obtain ⟨x', hx', hviews, -⟩ := delete_spec hown hr entityId
    cases hx.symm.trans hx'
    have hview : Registry.View.left r.view entityId r.view ∈ x.directory.views := by
      rw [hviews]
      exact List.mem_map_of_mem (List.mem_map_of_mem (mem_of_get? hr))
    obtain ⟨r', hr', hleft⟩ := List.mem_map.1 hview
    have hid : r'.id = registryId := by
      have hid : r'.view.id = r.view.id := by
        rw [hleft, Registry.View.left, if_pos rfl]
        rfl
      exact hid.trans (id_of_get? hr)
    have hown' : ∀ q ∈ x.directory.registries, q.Own := fun q hq =>
      (delete_from hx).rewrites.toKeeps.owns q.id (owns_of_forall hown q.id) q (get?_of_mem hq)
    obtain ⟨y, hy, hviews', -⟩ := delete_spec hown' (hid ▸ get?_of_mem hr') entityId
    refine ⟨y.directory, congrArg (·.map Deletion.directory) hy, ?_⟩
    rw [hviews', hleft, hviews, List.map_map]
    exact List.map_congr_left fun v _ => Registry.View.left_left _ _ _

end Directory

/-! ## The server -/

namespace Server

/-- What a packet writes. -/
def write : Packet → Directory → Except RegistryError Directory
  | .responseData snapshot => if snapshot.registryId = RegistryId.orders then .ok else (·.load snapshot)
  | .dataAdded added => (·.upsert added.registryId added.entity)
  | .dataDeleted deleted => fun d => (d.delete deleted.registryId deleted.entityId).map (·.directory)
  | .orderStatusChanged changed => Directory.upsertIn Directory.requireOrders (.order changed.order)
  | _ => .ok

/-- The server once the number of an order that a packet brings along is taken. -/
def reserve (s : Server) : Packet → Server
  | .dataAdded added =>
    if (s.directory.shape added.registryId).isSome then s.numberAboveEntity added.entity else s
  | .orderStatusChanged changed =>
    if s.directory.shape RegistryId.orders = some (.order, .descendingOrderId) then
      s.numberAbove changed.order.orderId
    else s
  | _ => s

theorem lasting_write (p : Packet) : Directory.Lasting (write p) := by
  cases p with
  | responseData snapshot =>
    rw [write]
    split
    · exact Directory.lasting_ok
    · exact Directory.lasting_load snapshot
  | dataAdded added => exact Directory.lasting_upsert _ _
  | dataDeleted deleted => exact Directory.lasting_delete _ _
  | orderStatusChanged changed => exact Directory.lasting_upsertOrder _
  | handShake | hello | keyExchange | encryptComplete | requestData | orderUpdated => exact Directory.lasting_ok

theorem takeSnapshot_writes (s : Server) (sender : ConnectionId) (snapshot : ResponseData) :
    (s.takeSnapshot sender snapshot).1.directory = s.directory.after (write (.responseData snapshot)) ∧
      (s.takeSnapshot sender snapshot).1.nextOrderId = s.nextOrderId := by
  rw [takeSnapshot, write]
  split
  · exact ⟨rfl, rfl⟩
  · split
    · next e he => exact ⟨(Directory.after_error he).symm, rfl⟩
    · next d hd =>
      obtain ⟨hdirectory, hnext⟩ := { s with directory := d }.announce_keeps snapshot.registryId (some sender)
      exact ⟨hdirectory.trans (Directory.after_ok hd).symm, hnext⟩

theorem takeAdded_writes (s : Server) (added : DataAdded) :
    (s.takeAdded added).1.directory = s.directory.after (write (.dataAdded added)) ∧
      (s.takeAdded added).1.nextOrderId = (s.reserve (.dataAdded added)).nextOrderId := by
  have hdirectory := s.directory_numberAboveEntity added.entity
  have hwrite : ∀ r, s.directory.get? added.registryId = some r →
      write (.dataAdded added) s.directory = s.directory.set <$> r.upsertEntity added.entity := by
    intro r hr
    show s.directory.upsert _ _ = _
    rw [Directory.upsert, Directory.require_eq_ok_iff.2 hr]
    rfl
  rw [takeAdded]
  split
  · next e he =>
    have hget : s.directory.get? added.registryId = none := by
      refine Option.eq_none_iff_forall_ne_some.2 fun r hr => ?_
      cases he.symm.trans (Directory.require_eq_ok_iff.2 hr)
    have hfails : write (.dataAdded added) s.directory = .error e := by
      show s.directory.upsert _ _ = _
      rw [Directory.upsert, he]
      rfl
    refine ⟨(Directory.after_error hfails).symm, ?_⟩
    rw [reserve, Directory.shape, hget]
    rfl
  · next r hr =>
    have hget := Directory.require_eq_ok_iff.1 hr
    have hreserve : s.reserve (.dataAdded added) = s.numberAboveEntity added.entity := by
      rw [reserve, Directory.shape, hget]
      rfl
    rw [hreserve]
    split
    · next e he =>
      have hfails : write (.dataAdded added) s.directory = .error e := by rw [hwrite r hget, he]; rfl
      exact ⟨hdirectory.trans (Directory.after_error hfails).symm, rfl⟩
    · next r' hr' =>
      have hdone : write (.dataAdded added) s.directory = .ok (s.directory.set r') := by rw [hwrite r hget, hr']; rfl
      obtain ⟨hset, hnext⟩ := announce_keeps
        { s.numberAboveEntity added.entity with directory := (s.numberAboveEntity added.entity).directory.set r' }
        added.registryId none
      refine ⟨hset.trans ?_, hnext⟩
      rw [Directory.after_ok hdone, hdirectory]

theorem takeDeleted_writes (s : Server) (deleted : DataDeleted) :
    (s.takeDeleted deleted).1.directory = s.directory.after (write (.dataDeleted deleted)) ∧
      (s.takeDeleted deleted).1.nextOrderId = s.nextOrderId := by
  rw [takeDeleted]
  split
  · next e he => exact ⟨(Directory.after_error (congrArg (·.map Deletion.directory) he)).symm, rfl⟩
  · next x hx =>
    obtain ⟨hdirectory, hnext⟩ := s.told_keeps x.directory x.touched none
    exact ⟨hdirectory.trans (Directory.after_ok (congrArg (·.map Deletion.directory) hx)).symm, hnext⟩

theorem takeOrder_writes (s : Server) (sender : ConnectionId) {o : Order} (ho : 0 < o.orderId) :
    (s.takeOrder sender o).1.directory = s.directory.after (write (submission o)) ∧
      (s.takeOrder sender o).1.nextOrderId = (s.reserve (submission o)).nextOrderId := by
  have hassigned : o.isUnassigned = false := decide_eq_false (Int64.not_le.2 ho)
  rw [takeOrder]
  split
  · next hnone =>
    have hfails : write (submission o) s.directory = .error (.unknownRegistry RegistryId.orders) := by
      show Directory.upsertIn _ _ _ = _
      rw [Directory.upsertIn, Directory.requireOrders, hnone]
      rfl
    refine ⟨(Directory.after_error hfails).symm, ?_⟩
    rw [reserve, if_neg]
    · rfl
    · intro hshape
      obtain ⟨r, hr, htype⟩ := Directory.exists_of_shape hshape
      cases hnone.symm.trans (Directory.orders?_eq_some_iff.2 ⟨hr, htype⟩)
  · next orders horders =>
    obtain ⟨hget, hkind, hpolicy⟩ := Directory.orders?_eq_some_iff.1 horders
    have hreserve : s.reserve (submission o) = s.numberAbove o.orderId := by
      rw [reserve, Directory.shape_of_get? hget, hkind, hpolicy]
      exact if_pos rfl
    obtain ⟨e, he, hstore⟩ := (s.numberAbove o.orderId).storeOrder_eq hkind sender o o
    have hdone : write (submission o) s.directory = .ok (s.directory.set (orders.upsert e)) := by
      show Directory.upsertIn _ _ _ = _
      rw [Directory.upsertIn, Directory.requireOrders_eq_ok_iff.2 horders, ← he]
      exact congrArg (s.directory.set <$> ·) (orders.upsertEntity_entity e)
    rw [hassigned, if_neg Bool.false_ne_true, hstore, hreserve]
    exact ⟨(Directory.after_ok hdone).symm, rfl⟩

theorem handle_writes (s : Server) (sender : ConnectionId) {p : Packet}
    (hp : ∀ o, p = .orderStatusChanged ⟨o⟩ → 0 < o.orderId) :
    (s.handle sender p).1.directory = s.directory.after (write p) ∧
      (s.handle sender p).1.nextOrderId = (s.reserve p).nextOrderId := by
  cases p with
  | responseData snapshot => exact s.takeSnapshot_writes sender snapshot
  | dataAdded added => exact s.takeAdded_writes added
  | dataDeleted deleted => exact s.takeDeleted_writes deleted
  | orderStatusChanged changed => exact s.takeOrder_writes sender (hp changed.order rfl)
  | handShake | hello | keyExchange | encryptComplete | requestData | orderUpdated => exact ⟨rfl, rfl⟩

theorem max_max_right (a b : Int64) : max (max a b) b = max a b := by
  have hmax : max (max a b) b = if max a b ≤ b then b else max a b := rfl
  rw [hmax]
  split
  · next h => exact Int64.le_antisymm (Amount.le_max_right a b) h
  · rfl

theorem nextOrderId_reserve {s t : Server} {p : Packet} (hshape : t.directory.shape = s.directory.shape)
    (hnext : t.nextOrderId = (s.reserve p).nextOrderId) : (t.reserve p).nextOrderId = t.nextOrderId := by
  have habove : ∀ n, t.nextOrderId = (s.numberAbove n).nextOrderId → (t.numberAbove n).nextOrderId = t.nextOrderId := by
    intro n hn
    show max t.nextOrderId _ = _
    rw [hn]
    exact max_max_right _ _
  cases p with
  | dataAdded added =>
    rw [reserve] at hnext ⊢
    rw [hshape]
    split at hnext
    · next hsome =>
      rw [if_pos hsome]
      cases hx : added.entity with
      | order o =>
        rw [hx] at hnext
        exact habove o.orderId hnext
      | menu | category | menuOption | optionGroup => rfl
    · next hnone => rw [if_neg hnone]
  | orderStatusChanged changed =>
    rw [reserve] at hnext ⊢
    rw [hshape]
    split at hnext
    · next horders =>
      rw [if_pos horders]
      exact habove _ hnext
    · next horders => rw [if_neg horders]
  | handShake | hello | keyExchange | encryptComplete | requestData | responseData | dataDeleted | orderUpdated => rfl

theorem handle_twice {s : Server} (hown : ∀ r ∈ s.directory.registries, r.Own) (sender : ConnectionId) {p : Packet}
    (hp : ∀ o, p = .orderStatusChanged ⟨o⟩ → 0 < o.orderId) :
    ((s.handle sender p).1.handle sender p).1.directory.views = (s.handle sender p).1.directory.views ∧
      ((s.handle sender p).1.handle sender p).1.nextOrderId = (s.handle sender p).1.nextOrderId := by
  obtain ⟨hdirectory, hnext⟩ := s.handle_writes sender hp
  obtain ⟨hdirectory', hnext'⟩ := (s.handle sender p).1.handle_writes sender hp
  have hshape := (handled_keeps (s.handled sender p)).shape
  rw [hdirectory', hnext', hdirectory]
  exact ⟨(lasting_write p).after_after hown, nextOrderId_reserve hshape hnext⟩

end Server

/-! ## The kiosk -/

namespace Kiosk

def write : Packet → Directory → Except RegistryError Directory
  | .responseData snapshot => (·.load snapshot)
  | .orderStatusChanged changed => Directory.upsertIn Directory.requireOrders (.order changed.order)
  | .orderUpdated updated => Directory.upsertIn Directory.requireOrders (.order updated.order)
  | _ => .ok

theorem lasting_write (p : Packet) : Directory.Lasting (write p) := by
  cases p with
  | responseData snapshot => exact Directory.lasting_load snapshot
  | orderStatusChanged | orderUpdated => exact Directory.lasting_upsertOrder _
  | handShake | hello | keyExchange | encryptComplete | requestData | dataAdded | dataDeleted =>
    exact Directory.lasting_ok

theorem directory_takeOrder (k : Kiosk) (o : Order) :
    (k.takeOrder o).1.directory = k.directory.after (Directory.upsertIn Directory.requireOrders (.order o)) := by
  rw [takeOrder, Directory.after, Directory.upsertIn, Directory.requireOrders]
  cases k.directory.orders? with
  | none => rfl
  | some r =>
    show _ = (k.directory.set <$> r.upsertEntity (.order o)).toOption.getD k.directory
    cases hr : r.upsertEntity (.order o) <;> simp only [hr] <;> rfl

theorem directory_handle (k : Kiosk) (p : Packet) : (k.handle p).1.directory = k.directory.after (write p) := by
  cases p with
  | responseData snapshot =>
    show (k.takeSnapshot snapshot).1.directory = k.directory.after (·.load snapshot)
    rw [takeSnapshot, Directory.after]
    cases k.directory.load snapshot <;> rfl
  | orderStatusChanged changed => exact k.directory_takeOrder changed.order
  | orderUpdated updated => exact k.directory_takeOrder updated.order
  | handShake | hello | keyExchange | encryptComplete | requestData | dataAdded | dataDeleted => rfl

end Kiosk

/-- **Redelivery.** A packet that is handled again at once changes no registry
of the server or of a kiosk, and takes up no number. -/
theorem redelivery :
    (∀ (s : Server) (sender : ConnectionId) (p : Packet), (∀ r ∈ s.directory.registries, r.Own) →
      (∀ o, p = .orderStatusChanged ⟨o⟩ → 0 < o.orderId) →
        let once := (s.handle sender p).1
        let twice := (once.handle sender p).1
        twice.directory.views = once.directory.views ∧ twice.nextOrderId = once.nextOrderId) ∧
    ∀ (k : Kiosk) (p : Packet), (∀ r ∈ k.directory.registries, r.Own) →
      let once := (k.handle p).1
      let twice := (once.handle p).1
      twice.directory.views = once.directory.views := by
  constructor
  · intro s sender p hown hp
    exact Server.handle_twice hown sender hp
  · intro k p hown
    show ((k.handle p).1.handle p).1.directory.views = (k.handle p).1.directory.views
    rw [Kiosk.directory_handle (k.handle p).1, Kiosk.directory_handle]
    exact (Kiosk.lasting_write p).after_after hown

/-- The server is told twice that a menu is gone, and a kiosk what is left. -/
theorem redelivery_deleted :
    let s := Server.start .counter
    let k := Kiosk.start .counter
    let gone := Packet.dataDeleted ⟨RegistryId.menus, "latte"⟩
    let rest := Packet.responseData ⟨RegistryId.menus, [.menu Directory.tea]⟩
    (∀ r ∈ Directory.counter.registries, r.Own) ∧
      ((s.handle ⟨1⟩ gone).1.handle ⟨1⟩ gone).1.directory.views = (s.handle ⟨1⟩ gone).1.directory.views ∧
      ((k.handle rest).1.handle rest).1.directory.views = (k.handle rest).1.directory.views :=
  ⟨Directory.own_counter, (redelivery.1 (.start .counter) ⟨1⟩ (.dataDeleted _) Directory.own_counter nofun).1,
    redelivery.2 (.start .counter) (.responseData _) Directory.own_counter⟩

end OrderDesk
