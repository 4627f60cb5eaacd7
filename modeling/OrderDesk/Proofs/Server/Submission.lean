import OrderDesk.Proofs.Registry.Built
import OrderDesk.Proofs.Registry.Deletion
import OrderDesk.Proofs.Server.OrderIds
import OrderDesk.Proofs.Server.Peers

/-!
# Submitted orders

One submission gives an order its number, files it, tells the other peers and
answers the sender. Main result: `submission_exact`, in every state that a
server can come to.
-/

namespace OrderDesk

namespace Server

/-! ## Reachable states -/

/-- A server starts with the registries that the node has built. Then it makes
moves, and the node edits its registries. The peers may be any. -/
inductive Reachable : Server → Prop
  | start {d : Directory} (h : d.Built) : Reachable (.start d)
  | move {s : Server} (h : Reachable s) (m : Move) : Reachable (s.after m)
  | edit {s : Server} (h : Reachable s) {d : Directory} (he : s.directory.Edit d) : Reachable { s with directory := d }
  | peers {s : Server} (h : Reachable s) (peers : PeerTable Packet) : Reachable { s with peers }

/-- The next number is a number, and orders are filed under theirs. -/
structure Orderly (s : Server) : Prop where
  positive : 1 ≤ s.nextOrderId
  owns : s.directory.OwnsDescending

variable {s : Server} {orders : Registry}

theorem Reachable.orderly (h : s.Reachable) : s.Orderly := by
  induction h with
  | start h => exact ⟨start_positive _, h.ownsDescending⟩
  | @move s h m ih =>
    exact ⟨Int64.le_trans ih.positive (s.after_advances m).counter, ih.owns.keeps (s.after_keeps m)⟩
  | edit h he ih => exact ⟨ih.positive, ih.owns.edit he⟩
  | peers h peers ih => exact ⟨ih.positive, ih.owns⟩

theorem Reachable.run (h : s.Reachable) (ms : List Move) : (s.run ms).Reachable := by
  induction ms generalizing s with
  | nil => exact h
  | cons m ms ih => exact ih (h.move m)

/-! ## One submission -/

/-- The order that is filed when an order is submitted. -/
def canonical (s : Server) (o : Order) : Order := if o.isUnassigned then numbered o s.nextOrderId else o

theorem handle_submission (hr : s.directory.orders? = some orders) (sender : ConnectionId) (o : Order) :
    (o.isUnassigned ∧ s.nextOrderId = Int64.maxValue) ∧
        s.handle sender (submission o) = (s, .error (.protocol (.invalidMessage "order ids exhausted"))) ∨
      ¬(o.isUnassigned ∧ s.nextOrderId = Int64.maxValue) ∧
        ∃ (n : Int64) (e : Element orders.kind), e.entity = .order (s.canonical o) ∧
          s.handle sender (submission o) =
            ({ s with nextOrderId := n }.filed orders e sender (s.canonical o),
              .ok (if s.canonical o = o then [] else [.orderUpdated ⟨s.canonical o⟩])) := by
  have h := s.handled sender (submission o)
  generalize s.handle sender (submission o) = out at h
  cases h with
  | dropped _ h | refused _ _ h => exact absurd rfl h
  | withoutOrders _ h => cases h.symm.trans hr
  | exhausted _ ho h => exact .inl ⟨⟨ho, h⟩, rfl⟩
  | checkedOut _ orders' e ho h hr' he =>
    obtain rfl : orders = orders' := Option.some.inj (hr.symm.trans hr')
    rw [show s.canonical o = numbered o s.nextOrderId from if_pos ho]
    exact .inr ⟨fun hmax => h hmax.2, s.nextOrderId + 1, e, he, rfl⟩
  | resubmitted _ orders' e ho hr' he =>
    obtain rfl : orders = orders' := Option.some.inj (hr.symm.trans hr')
    rw [show s.canonical o = o from if_neg ho, if_pos rfl]
    exact .inr ⟨fun hmax => ho hmax.1, (s.numberAbove o.orderId).nextOrderId, e, he, rfl⟩

theorem views_filed (hr : s.directory.orders? = some orders) (hown : orders.Own) {e : Element orders.kind} {o : Order}
    (he : e.entity = .order o) (sender : ConnectionId) :
    (s.filed orders e sender o).directory.views = s.directory.views.map fun v =>
      if v.id = RegistryId.orders then v.transact (Entries.put o.elementId (.order o)) else v := by
  have hget := (Directory.orders?_eq_some_iff.1 hr).1
  have hid : e.id = o.elementId := congrArg Entity.elementId he
  rw [← Directory.id_of_get? hget]
  refine Directory.views_set_transact (f := fun store => Registry.file orders.policy store e.id e)
    (Directory.get?_self hget) ?_
  rw [Registry.toList_file, Registry.Listing.file, Entries.fileUnder_own, Entries.Own.file_eq_put hown,
    Registry.untyped_put, he, hid]
  rfl

theorem canonical_eq_iff (h : 1 ≤ s.nextOrderId) {o : Order} : s.canonical o = o ↔ ¬o.orderId ≤ 0 := by
  have hiff : o.isUnassigned = true ↔ o.orderId ≤ 0 := decide_eq_true_iff
  rw [← hiff, canonical]
  split
  · next ho =>
    exact iff_of_false (numbered_ne ho (Int64.lt_of_lt_of_le (by decide) h)) (not_not.2 ho)
  · next ho => exact iff_of_true rfl ho

/-- **Submission.** An order that is submitted without a number gets the next
one and is accepted if it is pending, or is refused once there are no more
numbers. Any other order is taken as it is. The order is filed under its
number; what else is filed stays, in every registry. It comes last in the open
mailboxes of the other encrypted peers, and no other mailbox changes. The
sender hears of it if the order had no number. -/
theorem submission_exact (h : s.Reachable) (hr : s.directory.orders? = some orders) (sender : ConnectionId) (o : Order) :
    let canonical :=
      if o.orderId ≤ 0 then
        { o with orderId := s.nextOrderId, status := if o.status = .pending then .accepted else o.status }
      else o
    let update := Packet.orderUpdated ⟨canonical⟩
    let out := s.handle sender (submission o)
    (o.orderId ≤ 0 ∧ s.nextOrderId = Int64.maxValue →
      out = (s, .error (.protocol (.invalidMessage "order ids exhausted")))) ∧
    (¬(o.orderId ≤ 0 ∧ s.nextOrderId = Int64.maxValue) →
      out.2 = .ok (if o.orderId ≤ 0 then [update] else []) ∧
      (out.1.directory.views = s.directory.views.map fun v =>
        if v.id = RegistryId.orders then
          v.transact (Entries.put (Decimal.render canonical.orderId.toInt) (.order canonical))
        else v) ∧
      out.1.peers.peers = s.peers.peers ∧
      out.1.peers.mailboxes = s.peers.mailboxes.mapIdx fun n box =>
        if box.isClosed = false ∧ ∃ p ∈ s.peers.peers, p.mailbox = n ∧ p.encrypted ∧ p.connection ≠ sender then
          { box with messages := box.messages ++ [update] }
        else box) := by
  intro canonical update out
  have hcanonical : s.canonical o = canonical := by
    simp only [Server.canonical, Order.isUnassigned, decide_eq_true_eq]
    rfl
  have hiff : o.isUnassigned = true ↔ o.orderId ≤ 0 := decide_eq_true_iff
  obtain ⟨hget, -, hpolicy⟩ := Directory.orders?_eq_some_iff.1 hr
  have hown : orders.Own := h.orderly.owns orders (Directory.mem_of_get? hget) hpolicy
  have hsame := canonical_eq_iff h.orderly.positive (o := o)
  rcases handle_submission hr sender o with ⟨hmax, heq⟩ | ⟨hmax, n, e, he, heq⟩
  · rw [hiff] at hmax
    exact ⟨fun _ => heq, fun hne => absurd hmax hne⟩
  · rw [hiff] at hmax
    refine ⟨fun h => absurd h hmax, fun _ => ?_⟩
    rw [hcanonical] at he heq hsame
    rw [show out = _ from heq]
    refine ⟨?_, views_filed (s := { s with nextOrderId := n }) hr hown he sender, rfl, ?_⟩
    · by_cases ho : o.orderId ≤ 0
      · rw [if_pos ho, if_neg (mt hsame.1 (not_not.2 ho))]
      · rw [if_neg ho, if_pos (hsame.2 ho)]
    · refine (s.peers.mailboxes_broadcast update (some sender)).trans ?_
      simp only [ne_eq, Option.some.injEq]

/-- Of three other peers one is dead and one is not encrypted. -/
theorem submission_exact_checkout :
    let moves := [.join ⟨1⟩, .welcome ⟨1⟩ "counter", .join ⟨2⟩, .welcome ⟨2⟩ "kitchen", .join ⟨3⟩, .welcome ⟨3⟩ "bar",
      .join ⟨4⟩]
    let joined := (start .standard).run moves
    let s := { joined with peers := joined.peers.close 2 }
    let o := Order.checkout "Ada" 0 .empty
    let update := Packet.orderUpdated ⟨{ o with orderId := 1, status := .accepted }⟩
    let out := s.handle ⟨1⟩ (submission o)
    s.Reachable ∧ s.directory.orders? = some (.standard RegistryId.orders .order) ∧ out.2 = .ok [update] ∧
      out.1.peers.mailboxes = [⟨[], false⟩, ⟨[update], false⟩, ⟨[], true⟩, ⟨[], false⟩] := by
  intro moves joined s o update out
  have hreachable : s.Reachable := ((Reachable.start Directory.built_standard).run moves).peers _
  have hr : s.directory.orders? = some (.standard RegistryId.orders .order) := rfl
  have hne : ¬(o.orderId ≤ 0 ∧ s.nextOrderId = Int64.maxValue) := by
    rintro ⟨-, hmax⟩
    have hn : s.nextOrderId = 1 := rfl
    rw [hn] at hmax
    exact absurd hmax (by decide)
  obtain ⟨hreply, -, -, hboxes⟩ := (submission_exact hreachable hr ⟨1⟩ o).2 hne
  exact ⟨hreachable, hr, hreply, hboxes⟩

end Server

end OrderDesk
