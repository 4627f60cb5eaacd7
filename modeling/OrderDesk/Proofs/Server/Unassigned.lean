import OrderDesk.Proofs.Server.OrderIds

/-!
# Orders without a number

A submitted order is filed under a positive number, its own or the one that the
server gives it. An order that is added to the registry of orders by name is
filed as it is: this is the one way in which an order without a number gets
there.
-/

namespace OrderDesk.Server

abbrev addition (o : Order) : Packet := .dataAdded ⟨RegistryId.orders, .order o⟩

/-- A packet brings an order to the registry of orders: it adds it, or submits
it, or submits the fresh order that gets the next number. -/
inductive Brings (s : Server) (o : Order) : Packet → Prop
  | added : Brings s o (addition o)
  | resubmitted (ho : ¬o.isUnassigned) : Brings s o (submission o)
  | checkedOut (fresh : Order) (h : o = numbered fresh s.nextOrderId) : Brings s o (submission fresh)

variable {s : Server} {sender : ConnectionId} {o : Order}

theorem not_isUnassigned_iff : ¬o.isUnassigned ↔ 1 ≤ o.orderId := by
  rw [Order.isUnassigned, decide_eq_true_eq, Int64.le_iff_toInt_le, Int64.le_iff_toInt_le, Int64.toInt_zero,
    Int64.toInt_one]
  omega

theorem lists_set_upsert {r : Registry} {e : Element r.kind} (hr : s.directory.get? r.id = some r)
    (h : .order o ∈ (s.directory.set (r.upsert e)).listing RegistryId.orders) :
    s.Lists o ∨ r.id = RegistryId.orders ∧ e.entity = .order o := by
  rw [Directory.listing_set_upsert hr] at h
  split at h
  · next hid =>
    rcases Registry.eq_or_mem_of_mem_upsert h with heq | hmem
    · exact .inr ⟨hid, heq.symm⟩
    · refine .inl ?_
      rw [Lists, ← hid, Directory.listing_of_get? hr]
      exact hmem
  · exact .inl h

/-! ## Where orders come from -/

theorem handled_brings {p : Packet} {out : Outcome} (h : Handled s sender p out) (ho : out.1.Lists o) :
    s.Lists o ∨ Brings s o p := by
  cases h with
  | answered | dropped | refused | withoutOrders | exhausted => exact .inl ho
  | checkedOut fresh orders e _ _ hr he =>
    have hget := Directory.get?_self (Directory.orders?_eq_some_iff.1 hr).1
    refine (lists_set_upsert hget ho).imp id fun h => ?_
    exact .checkedOut fresh (Entity.order.inj (h.2.symm.trans he))
  | resubmitted o' orders e ho' hr he =>
    have hget := Directory.get?_self (Directory.orders?_eq_some_iff.1 hr).1
    refine (lists_set_upsert hget ho).imp id fun h => ?_
    obtain rfl : o = o' := Entity.order.inj (h.2.symm.trans he)
    exact .resubmitted ho'
  | loaded snapshot r es hid hr hes =>
    have hrid : r.id ≠ RegistryId.orders := Directory.id_of_get? hr ▸ hid
    rw [Lists, (told_keeps _ _ _ _).1, Directory.listing_set_replaceAll (Directory.get?_self hr), if_neg hrid] at ho
    exact .inl ho
  | mismatched added e =>
    rw [Lists, ← s.directory_numberAboveEntity added.entity]
    exact .inl ho
  | added registryId r e hr =>
    rw [Lists, (told_keeps _ _ _ _).1] at ho
    refine (lists_set_upsert (Directory.get?_self hr) ho).imp id fun h => ?_
    obtain rfl : registryId = RegistryId.orders := (Directory.id_of_get? hr).symm.trans h.1
    rw [h.2]
    exact .added
  | deleted deleted x h =>
    rw [Lists, (told_keeps _ _ _ _).1] at ho
    exact .inl ((Directory.delete_from h).orders _ o ho)

theorem after_brings {m : Move} (ho : (s.after m).Lists o) :
    s.Lists o ∨ ∃ sender p, m = .packet sender p ∧ Brings s o p := by
  rcases s.after_eq m with ⟨sender, p, rfl, -, h⟩ | ⟨hd, -⟩
  · rw [h] at ho
    exact (handled_brings (s.handled sender p) ho).imp id fun hb => ⟨sender, p, rfl, hb⟩
  · rw [Lists, hd] at ho
    exact .inl ho

theorem Brings.eq_addition {p : Packet} (h : Brings s o p) (hs : 1 ≤ s.nextOrderId) (ho : o.isUnassigned) :
    p = addition o := by
  cases h with
  | added => rfl
  | resubmitted hno => exact absurd ho hno
  | checkedOut fresh heq =>
    have hid : o.orderId = s.nextOrderId := congrArg Order.orderId heq
    exact absurd ho (not_isUnassigned_iff.2 (hid ▸ hs))

theorem run_brings (hs : 1 ≤ s.nextOrderId) (ho : o.isUnassigned) {ms : List Move} (h : (s.run ms).Lists o) :
    s.Lists o ∨ ∃ sender, .packet sender (addition o) ∈ ms := by
  induction ms generalizing s with
  | nil => exact .inl h
  | cons m ms ih =>
    have hs' : 1 ≤ (s.after m).nextOrderId := Int64.le_trans hs (s.after_advances m).counter
    rcases ih hs' h with h | ⟨sender, hmem⟩
    · refine (after_brings h).imp id fun ⟨sender, p, hm, hb⟩ => ⟨sender, ?_⟩
      rw [hm, hb.eq_addition hs ho]
      exact List.mem_cons_self
    · exact .inr ⟨sender, List.mem_cons_of_mem m hmem⟩

/-! ## An order that is added -/

theorem lists_after_addition {orders : Registry} (hr : s.directory.orders? = some orders) (hown : orders.Own)
    (sender : ConnectionId) (o o' : Order) :
    (s.after (.packet sender (addition o))).Lists o' ↔ o' = o ∨ s.Lists o' ∧ o'.orderId ≠ o.orderId := by
  obtain ⟨hget, hkind, -⟩ := Directory.orders?_eq_some_iff.1 hr
  obtain ⟨e, he, hupsert⟩ := Registry.exists_upsertEntity_order hkind o
  have hafter : s.after (.packet sender (addition o)) = (s.takeAdded ⟨RegistryId.orders, .order o⟩).1 := rfl
  have hdir : (s.after (.packet sender (addition o))).directory = s.directory.set (orders.upsert e) := by
    rw [hafter, takeAdded, Directory.require_eq_ok_iff.2 hget]
    simp only [hupsert]
    exact (announce_keeps _ _ _).1
  rw [Lists, hdir]
  exact lists_upsert hr hown he o'

theorem exists_orders_run {cs : List (Registry.Change .order)} {d : Directory}
    (hd : d.orders? = some ((Registry.Of.empty RegistryId.orders .descendingOrderId fun _ => rfl).run cs).val)
    (ms : List Move) : ∃ orders, ((start d).run ms).directory.orders? = some orders ∧ orders.Own := by
  have hkeeps := (start d).run_keeps ms
  obtain ⟨hget, hkind, hpolicy⟩ := Directory.orders?_eq_some_iff.1 hd
  have hshape : (start d).directory.shape RegistryId.orders = some (.order, .descendingOrderId) := by
    have hshape := Directory.shape_of_get? hget
    rwa [hkind, hpolicy] at hshape
  have howns : (start d).directory.Owns RegistryId.orders := by
    intro r hr
    obtain rfl := Option.some.inj (hget.symm.trans hr)
    exact Registry.Of.own_run _ _ cs
  obtain ⟨orders, hget', hkind'⟩ := Directory.exists_of_shape (hkeeps.shape ▸ hshape)
  exact ⟨orders, Directory.orders?_eq_some_iff.2 ⟨hget', hkind'⟩, hkeeps.owns _ howns orders hget'⟩

/-- **Orders without a number.** A server starts with orders that all have a
number and makes any moves. Then each order without a number that it lists was
added by a packet to the registry of orders; no submitted order is among them.
An order that is added so is listed as it is, and whatever was listed under its
number is not listed any more. -/
theorem lists_unassigned (cs : List (Registry.Change .order)) (d : Directory)
    (hd : d.orders? = some ((Registry.Of.empty RegistryId.orders .descendingOrderId fun _ => rfl).run cs).val)
    (hnumbered : ∀ o, (start d).Lists o → 1 ≤ o.orderId) (ms : List Move) :
    let s := (start d).run ms
    (∀ o, s.Lists o → 1 ≤ o.orderId ∨ ∃ sender, .packet sender (addition o) ∈ ms) ∧
      ∀ sender o o', (s.after (.packet sender (addition o))).Lists o' ↔
        o' = o ∨ s.Lists o' ∧ o'.orderId ≠ o.orderId := by
  intro s
  obtain ⟨orders, hr, hown⟩ := exists_orders_run hd ms
  refine ⟨fun o ho => ?_, lists_after_addition hr hown⟩
  by_cases hno : o.isUnassigned
  · exact (run_brings (start_positive d) hno ho).imp (hnumbered o) id
  · exact .inl (not_isUnassigned_iff.1 hno)

/-- Two fresh orders that kiosks add to the registry of orders. -/
def additions : List Move :=
  [.packet ⟨1⟩ (addition (.checkout "Ada" 0 .empty)), .packet ⟨2⟩ (addition (.checkout "Grace" 0 .empty))]

/-- Of two fresh orders that are added the second takes the place of the
first. -/
theorem lists_unassigned_overwritten :
    ((start .standard).run additions).Lists (.checkout "Grace" 0 .empty) ∧
      ¬((start .standard).run additions).Lists (.checkout "Ada" 0 .empty) := by
  have hnumbered : ∀ o, (start .standard).Lists o → 1 ≤ o.orderId := nofun
  have hadded := (lists_unassigned [] .standard rfl hnumbered [.packet ⟨1⟩ (addition (.checkout "Ada" 0 .empty))]).2 ⟨2⟩
    (.checkout "Grace" 0 .empty)
  exact ⟨(hadded _).2 (.inl rfl), fun h => ((hadded _).1 h).elim (by decide) fun h => h.2 rfl⟩

/-- A server that starts without orders can come to list one without a
number. -/
theorem unassigned_listed :
    ¬ ∀ (ms : List Move) (o : Order), ((start .standard).run ms).Lists o → 1 ≤ o.orderId := by
  intro h
  let o := Order.checkout "Grace" 0 .empty
  have hr : (start .standard).directory.orders? = some (.standard RegistryId.orders .order) := rfl
  have hlisted : ((start .standard).run [.packet ⟨2⟩ (addition o)]).Lists o :=
    (lists_after_addition hr (Registry.own_standard _ _) ⟨2⟩ o o).2 (.inl rfl)
  exact absurd (h _ o hlisted) (by decide)

end OrderDesk.Server
