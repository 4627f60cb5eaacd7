import OrderDesk.Proofs.Server.Run

/-!
# Numbers of orders

The server's counter stays above the number of every order that its registry
of orders ever listed, until it has reached the largest number there is; from
then on it stays there and fresh orders are refused. Main result:
`fresh_numbers`.
-/

namespace OrderDesk.Server

def Lists (s : Server) (o : Order) : Prop := .order o ∈ s.directory.listing RegistryId.orders

/-- The counter is above a number, or has reached its end. -/
def Above (s : Server) (n : Int64) : Prop := n < s.nextOrderId ∨ s.nextOrderId = Int64.maxValue

/-- The counter goes up, and above every order that comes to the listed ones. -/
structure Advances (s s' : Server) : Prop where
  counter : s.nextOrderId ≤ s'.nextOrderId
  lists : ∀ o, s'.Lists o → s.Lists o ∨ s'.Above o.orderId

variable {s s' : Server} {sender : ConnectionId}

theorem le_maxValue (n : Int64) : n ≤ Int64.maxValue := Int64.le_iff_toInt_le.2 (Int64.toInt_le n)

theorem Above.mono {n : Int64} (h : s.Above n) (hle : s.nextOrderId ≤ s'.nextOrderId) : s'.Above n := by
  rcases h with h | h
  · exact .inl (Int64.lt_of_lt_of_le h hle)
  · exact .inr (Int64.le_antisymm (le_maxValue _) (h ▸ hle))

theorem Advances.refl (s : Server) : s.Advances s := ⟨Int64.le_refl _, fun _ => .inl⟩

theorem Advances.trans {s'' : Server} (h : s.Advances s') (h' : s'.Advances s'') : s.Advances s'' where
  counter := Int64.le_trans h.counter h'.counter
  lists o ho := by
    rcases h'.lists o ho with ho | ho
    · exact (h.lists o ho).imp id (·.mono h'.counter)
    · exact .inr ho

theorem numberAbove_above (s : Server) (n : Int64) : (s.numberAbove n).Above n := by
  rcases Amount.lt_succSaturating n with h | h
  · exact .inl (Int64.lt_of_lt_of_le h (Amount.le_max_right _ _))
  · exact .inr (Int64.le_antisymm (le_maxValue _) (h ▸ Amount.le_max_right _ _))

/-! ## One move -/

theorem advances_of_directory {d : Directory} (hd : s'.directory = d) (hle : s.nextOrderId ≤ s'.nextOrderId)
    (hlists : ∀ o, .order o ∈ d.listing RegistryId.orders → s.Lists o ∨ s'.Above o.orderId) : s.Advances s' := by
  subst hd
  exact ⟨hle, hlists⟩

theorem advances_upsert {r : Registry} (hr : s.directory.get? r.id = some r) (e : Element r.kind)
    (hd : s'.directory = s.directory.set (r.upsert e)) (hle : s.nextOrderId ≤ s'.nextOrderId)
    (he : ∀ o, e.entity = .order o → s'.Above o.orderId) : s.Advances s' := by
  refine advances_of_directory hd hle fun o ho => ?_
  rw [Directory.listing_set_upsert hr] at ho
  split at ho
  · next hid =>
    rcases Registry.eq_or_mem_of_mem_upsert ho with ho | ho
    · exact .inr (he o ho.symm)
    · refine .inl ?_
      rw [Lists, ← hid, Directory.listing_of_get? hr]
      exact ho
  · exact .inl ho

theorem advances_numberAboveEntity (s : Server) (x : Entity) : s.Advances (s.numberAboveEntity x) := by
  refine advances_of_directory (s.directory_numberAboveEntity x) ?_ fun _ => .inl
  cases x with
  | order o => exact Amount.le_max_left _ _
  | _ => exact Int64.le_refl _

theorem handled_advances {p : Packet} {out : Outcome} (h : Handled s sender p out) : s.Advances out.1 := by
  cases h with
  | answered | dropped | refused | withoutOrders | exhausted => exact .refl s
  | checkedOut o orders e ho h hr he =>
    have hget := Directory.get?_self (Directory.orders?_eq_some_iff.1 hr).1
    have hlt := Amount.lt_add_one h
    refine advances_upsert hget e rfl (Int64.le_of_lt hlt) ?_
    intro o' ho'
    obtain rfl : numbered o s.nextOrderId = o' := Entity.order.inj (he.symm.trans ho')
    exact .inl hlt
  | resubmitted o orders e ho hr he =>
    have hget := Directory.get?_self (Directory.orders?_eq_some_iff.1 hr).1
    refine advances_upsert hget e rfl (Amount.le_max_left _ _) ?_
    intro o' ho'
    obtain rfl : o = o' := Entity.order.inj (he.symm.trans ho')
    exact s.numberAbove_above o.orderId
  | loaded snapshot r es hid hr hes =>
    obtain ⟨hd, hn⟩ := s.told_keeps (s.directory.set (r.replaceAll es)) [snapshot.registryId] (some sender)
    have hget := Directory.get?_self hr
    have hrid : r.id ≠ RegistryId.orders := Directory.id_of_get? hr ▸ hid
    refine advances_of_directory hd (hn ▸ Int64.le_refl _) fun o ho => .inl ?_
    rwa [Directory.listing_set_replaceAll hget, if_neg hrid] at ho
  | mismatched added e => exact advances_numberAboveEntity s added.entity
  | added registryId r e hr =>
    have hs := advances_numberAboveEntity s e.entity
    obtain ⟨hd, hn⟩ := (s.numberAboveEntity e.entity).told_keeps (s.directory.set (r.upsert e)) [registryId] none
    refine advances_upsert (Directory.get?_self hr) e hd (hn ▸ hs.counter) ?_
    intro o ho
    rw [Above, hn, ho]
    exact s.numberAbove_above o.orderId
  | deleted deleted x h =>
    obtain ⟨hd, hn⟩ := s.told_keeps x.directory x.touched none
    have hx := Directory.delete_from h
    exact advances_of_directory hd (hn ▸ Int64.le_refl _) fun o ho => .inl (hx.orders _ o ho)

theorem after_advances (s : Server) (m : Move) : s.Advances (s.after m) := by
  rcases s.after_eq m with ⟨sender, p, -, -, h⟩ | ⟨hd, hn⟩
  · rw [h]
    exact handled_advances (s.handled sender p)
  · exact advances_of_directory hd (hn ▸ Int64.le_refl _) fun _ => .inl

/-! ## Whole runs -/

theorem run_advances (s : Server) (ms : List Move) : s.Advances (s.run ms) := by
  induction ms generalizing s with
  | nil => exact .refl s
  | cons m ms ih => exact (s.after_advances m).trans (ih (s.after m))

theorem start_above {d : Directory} {r : Registry} (hr : d.orders? = some r) (o : Order) (ho : (start d).Lists o) :
    (start d).Above o.orderId := by
  obtain ⟨hget, -, hpolicy⟩ := Directory.orders?_eq_some_iff.1 hr
  have hmem : Entity.order o ∈ r.snapshot := Directory.listing_of_get? hget ▸ ho
  have hsorted := Registry.pairwise_snapshot hpolicy
  rw [Registry.snapshot] at hmem hsorted
  cases hall : r.all with
  | nil =>
    rw [hall] at hmem
    cases hmem
  | cons e es =>
    rw [hall] at hmem hsorted
    have hle : o.orderId ≤ Policy.number e := by
      rcases List.mem_cons.1 hmem with he | hmem
      · exact Int64.le_of_eq (congrArg Entity.number he)
      · have hrel := List.rel_of_pairwise_cons hsorted hmem
        exact hrel
    have hmax : o.orderId ≤ max (Policy.number e) 0 := Int64.le_trans hle (Amount.le_max_left _ _)
    have hstart : (start d).nextOrderId = Amount.succSaturating (max (Policy.number e) 0) := by
      simp [start, firstOrderId, hr, firstListed?, hall]
    rw [Above, hstart]
    exact (Amount.lt_succSaturating (max (Policy.number e) 0)).imp (Int64.lt_of_le_of_lt hmax) id

theorem start_positive (d : Directory) : 1 ≤ (start d).nextOrderId := by
  have hstart : (start d).nextOrderId = firstOrderId d := rfl
  rw [hstart, firstOrderId]
  split
  · exact Int64.le_refl 1
  · next highest _ =>
    have hle : 0 ≤ max highest 0 := Amount.le_max_right highest 0
    unfold Amount.succSaturating
    split
    · next h => rw [h]; decide
    · next h =>
      rw [Int64.le_iff_toInt_le, Int64.toInt_one, Amount.toInt_add_one h]
      rw [Int64.le_iff_toInt_le, Int64.toInt_zero] at hle
      omega

theorem run_advances_run (d : Directory) {ms₀ ms : List Move} (h : ms₀ <+: ms) :
    ((start d).run ms₀).Advances ((start d).run ms) := by
  obtain ⟨ms₁, rfl⟩ := h
  rw [run_append]
  exact run_advances _ ms₁

/-- The counter is above every order that was ever listed. -/
theorem above_of_lists {d : Directory} {r : Registry} (hr : d.orders? = some r) {ms₀ ms : List Move} (h : ms₀ <+: ms)
    {o : Order} (ho : ((start d).run ms₀).Lists o) : ((start d).run ms).Above o.orderId := by
  rcases ((start d).run_advances ms₀).lists o ho with ho | ho
  · exact (start_above hr o ho).mono ((start d).run_advances ms).counter
  · exact ho.mono (run_advances_run d h).counter

theorem counter_le_run (d : Directory) {ms₀ ms : List Move} (h : ms₀ <+: ms) :
    1 ≤ ((start d).run ms₀).nextOrderId ∧ ((start d).run ms₀).nextOrderId ≤ ((start d).run ms).nextOrderId :=
  ⟨Int64.le_trans (start_positive d) ((start d).run_advances ms₀).counter, (run_advances_run d h).counter⟩

/-! ## Fresh orders -/

theorem handle_fresh {o : Order} {orders : Registry} (ho : o.isUnassigned) (hr : s.directory.orders? = some orders)
    (sender : ConnectionId) :
    s.nextOrderId = Int64.maxValue ∧
        s.handle sender (submission o) = (s, .error (.protocol (.invalidMessage "order ids exhausted"))) ∨
      s.nextOrderId ≠ Int64.maxValue ∧ ∃ e : Element orders.kind, e.entity = .order (numbered o s.nextOrderId) ∧
        s.handle sender (submission o) =
          ({ s with nextOrderId := s.nextOrderId + 1 }.filed orders e sender (numbered o s.nextOrderId),
            .ok (if numbered o s.nextOrderId = o then [] else [.orderUpdated ⟨numbered o s.nextOrderId⟩])) := by
  have h := s.handled sender (submission o)
  generalize s.handle sender (submission o) = out at h
  cases h with
  | dropped _ h | refused _ _ h => exact absurd rfl h
  | withoutOrders _ h => cases h.symm.trans hr
  | exhausted _ _ h => exact .inl ⟨h, rfl⟩
  | checkedOut _ orders' e _ h hr' he =>
    obtain rfl : orders = orders' := Option.some.inj (hr.symm.trans hr')
    exact .inr ⟨h, e, he, rfl⟩
  | resubmitted _ _ _ hno => exact absurd ho hno

theorem lists_upsert {orders : Registry} (hr : s.directory.orders? = some orders) (hown : orders.Own)
    {e : Element orders.kind} {o : Order} (he : e.entity = .order o) (o' : Order) :
    .order o' ∈ (s.directory.set (orders.upsert e)).listing RegistryId.orders ↔
      o' = o ∨ s.Lists o' ∧ o'.orderId ≠ o.orderId := by
  have hget := (Directory.orders?_eq_some_iff.1 hr).1
  have hid : e.id = o.elementId := congrArg Entity.elementId he
  rw [Directory.listing_set_upsert (Directory.get?_self hget), if_pos (Directory.id_of_get? hget),
    hown.mem_upsert_iff, he, Entity.order.injEq, Lists, Directory.listing_of_get? hget, hid]
  exact or_congr Iff.rfl (and_congr Iff.rfl (not_congr Order.elementId_inj))

theorem lists_filed {orders : Registry} (hr : s.directory.orders? = some orders) (hown : orders.Own)
    {e : Element orders.kind} {o : Order} (he : e.entity = .order o) (hnew : ∀ o', s.Lists o' → o'.orderId ≠ o.orderId)
    (sender : ConnectionId) (o' : Order) : (s.filed orders e sender o).Lists o' ↔ o' = o ∨ s.Lists o' :=
  (lists_upsert hr hown he o').trans (or_congr Iff.rfl ⟨And.left, fun ho' => ⟨ho', hnew o' ho'⟩⟩)

/-- The number that a move gives to a fresh order, as the answer says. -/
def assigned? (s : Server) : Move → Option Int64
  | .packet sender (.orderStatusChanged ⟨o⟩) =>
    match o.isUnassigned, (s.handle sender (submission o)).2 with
    | true, .ok [.orderUpdated update] => some update.order.orderId
    | _, _ => none
  | _ => none

/-- The numbers that the moves of a run give to fresh orders, oldest first. -/
def assignedIn (s : Server) : List Move → List Int64
  | [] => []
  | m :: ms => (s.assigned? m).toList ++ (s.after m).assignedIn ms

theorem lt_of_assigned? {orders : Registry} (hr : s.directory.orders? = some orders) {m : Move} {k : Int64}
    (h : s.assigned? m = some k) : k < (s.after m).nextOrderId := by
  unfold assigned? at h
  split at h
  · next sender o =>
    split at h
    · next update ho hreply =>
      obtain rfl : update.order.orderId = k := Option.some.inj h
      have hafter : s.after (.packet sender (submission o)) = (s.handle sender (submission o)).1 := rfl
      rw [hafter]
      rcases handle_fresh ho hr sender with ⟨-, heq⟩ | ⟨hne, e, -, heq⟩
      · rw [heq] at hreply
        cases hreply
      · rw [heq] at hreply ⊢
        have hlt : s.nextOrderId < s.nextOrderId + 1 := Amount.lt_add_one hne
        dsimp only at hreply
        split at hreply
        · cases hreply
        · cases hreply
          exact hlt
    · cases h
  · cases h

theorem lt_of_mem_assignedIn (hshape : s.directory.shape RegistryId.orders = some (.order, .descendingOrderId))
    {ms : List Move} {k : Int64} (hk : k ∈ s.assignedIn ms) : k < (s.run ms).nextOrderId := by
  induction ms generalizing s with
  | nil => cases hk
  | cons m ms ih =>
    rcases List.mem_append.1 hk with hk | hk
    · obtain ⟨orders, hget, hkind⟩ := Directory.exists_of_shape hshape
      have hlt := lt_of_assigned? (Directory.orders?_eq_some_iff.2 ⟨hget, hkind⟩) (Option.mem_toList.1 hk)
      exact Int64.lt_of_lt_of_le hlt ((s.after m).run_advances ms).counter
    · exact ih ((s.after_keeps m).shape ▸ hshape) hk

/-- **Fresh numbers.** A server starts with a registry of orders of any
contents and makes any moves. Then a fresh order is refused if the counter has
reached its end, and the server stays as it is. Else the order gets the number
of the counter, which is positive and not the largest number, is above every
number that was given before and above the number of every order that was ever
listed; the counter goes up by one, and the order comes to those that are
listed. The counter is positive and never goes down. -/
theorem fresh_numbers (cs : List (Registry.Change .order)) (d : Directory)
    (hd : d.orders? = some ((Registry.Of.empty RegistryId.orders .descendingOrderId fun _ => rfl).run cs).val)
    (ms : List Move) (sender : ConnectionId) (o : Order) (ho : o.isUnassigned) :
    let s := (start d).run ms
    let n := s.nextOrderId
    let out := s.handle sender (submission o)
    (n = Int64.maxValue → out = (s, .error (.protocol (.invalidMessage "order ids exhausted")))) ∧
      (n ≠ Int64.maxValue → out.2 = .ok [.orderUpdated ⟨numbered o n⟩] ∧ 1 ≤ n ∧ n < Int64.maxValue ∧
        (∀ k ∈ (start d).assignedIn ms, k < n) ∧
        (∀ ms₀ o', ms₀ <+: ms → ((start d).run ms₀).Lists o' → o'.orderId < n) ∧
        (∀ o', out.1.Lists o' ↔ o' = numbered o n ∨ s.Lists o') ∧ out.1.nextOrderId.toInt = n.toInt + 1) ∧
      ∀ ms₀, ms₀ <+: ms → 1 ≤ ((start d).run ms₀).nextOrderId ∧ ((start d).run ms₀).nextOrderId ≤ n := by
  intro s n out
  have hkeeps := (start d).run_keeps ms
  obtain ⟨hget, hkind, hpolicy⟩ := Directory.orders?_eq_some_iff.1 hd
  have hshape : (start d).directory.shape RegistryId.orders = some (.order, .descendingOrderId) := by
    have hshape := Directory.shape_of_get? hget
    rwa [hkind, hpolicy] at hshape
  have howns : (start d).directory.Owns RegistryId.orders := by
    intro r hr
    obtain rfl := Option.some.inj (hget.symm.trans hr)
    exact Registry.Of.own_run _ _ cs
  obtain ⟨orders, hget', hkind'⟩ := Directory.exists_of_shape (hkeeps.shape ▸ hshape)
  have hr' := Directory.orders?_eq_some_iff.2 ⟨hget', hkind'⟩
  have hcounter := fun ms₀ (hms₀ : ms₀ <+: ms) => counter_le_run d hms₀
  rcases handle_fresh ho hr' sender with ⟨hmax, heq⟩ | ⟨hne, e, he, heq⟩
  · exact ⟨fun _ => heq, fun hne => absurd hmax hne, hcounter⟩
  · refine ⟨fun hmax => absurd hmax hne, fun _ => ?_, hcounter⟩
    have hone : 1 ≤ n := (hcounter ms (List.prefix_refl ms)).1
    have hpositive : 0 < n := Int64.lt_of_lt_of_le (by decide) hone
    have hlisted : ∀ ms₀ o', ms₀ <+: ms → ((start d).run ms₀).Lists o' → o'.orderId < n := fun ms₀ o' hms₀ ho' =>
      (above_of_lists hd hms₀ ho').resolve_right hne
    refine ⟨?_, hone, ?_, fun k hk => lt_of_mem_assignedIn hshape hk, hlisted, fun o' => ?_, ?_⟩
    · rw [show out = _ from heq, if_neg (numbered_ne ho hpositive)]
    · exact Int64.lt_of_le_of_ne (le_maxValue n) hne
    · have hown := hkeeps.owns _ howns orders hget'
      have hnew : ∀ o', s.Lists o' → o'.orderId ≠ n := fun o' ho' =>
        Int64.ne_of_lt (hlisted ms o' (List.prefix_refl ms) ho')
      rw [show out = _ from heq]
      exact lists_filed hr' hown he hnew sender o'
    · rw [show out = _ from heq]
      exact Amount.toInt_add_one hne

/-- A resubmitted order with number 41 makes the next number 42. -/
theorem fresh_numbers_resubmitted :
    let old := { Order.checkout "Ada" 0 .empty with orderId := 41 }
    let fresh := Order.checkout "Grace" 0 .empty
    let s := (start .standard).run [.packet ⟨1⟩ (submission old)]
    (s.handle ⟨2⟩ (submission fresh)).2 = .ok [.orderUpdated ⟨numbered fresh 42⟩] := by
  intro old fresh s
  have hn : s.nextOrderId = 42 := rfl
  have hne : s.nextOrderId ≠ Int64.maxValue := by
    rw [hn]
    decide
  have h := fresh_numbers [] .standard rfl [.packet ⟨1⟩ (submission old)] ⟨2⟩ fresh rfl
  exact (h.2.1 hne).1

end OrderDesk.Server
