import Mathlib.Data.List.Induction
import OrderDesk.Proofs.Registry.Operations

/-!
# Registries of orders

A registry with the descending policy is a map from numbers to orders. What it
holds under a number is what the last write of that number left, whatever ids
were proposed and by whatever operations the writes came. Main result:
`last_written`.
-/

namespace OrderDesk.Registry

open Policy (number)

/-! ## Writes -/

/-- What an operation does to the entities, one by one. -/
inductive Write (kind : EntityKind)
  | filed (e : Element kind)
  | removed (id : String)
  | cleared

namespace Write

variable {kind : EntityKind}

/-- The write as a descending registry takes it. -/
def on (l : List (String × Element kind)) : Write kind → List (String × Element kind)
  | filed e => Entries.file e.id e l
  | removed id => Entries.remove id l
  | cleared => []

def left? : Write kind → Option (Element kind)
  | filed e => some e
  | removed _ | cleared => none

def concerns (n : Int64) : Write kind → Bool
  | filed e => number e = n
  | removed id => id = Decimal.render n.toInt
  | cleared => true

/-- What the last of the writes that concern a number left of it. -/
def last (n : Int64) (ws : List (Write kind)) : Option (Element kind) :=
  (ws.filter (concerns n)).getLast?.bind left?

theorem last_concat (n : Int64) (ws : List (Write kind)) (w : Write kind) :
    last n (ws ++ [w]) = if w.concerns n then w.left? else last n ws := by
  rw [last, List.filter_append, List.filter_singleton]
  cases w.concerns n with
  | true => simp
  | false => simp [last]

end Write

def Step.writes {kind : EntityKind} : Step kind → List (Write kind)
  | .add _ e => [.filed e]
  | .addAll es => es.map .filed
  | .remove id => [.removed id]
  | .clear => [.cleared]

def Change.writes {kind : EntityKind} : Change kind → List (Write kind)
  | .direct step => step.writes
  | .freeze | .unfreeze => []
  | .upsert e => [.filed e]
  | .replaceAll es => .cleared :: es.map .filed
  | .transaction steps => steps.flatMap Step.writes

def Operation.writes {kind : EntityKind} : Operation kind → List (Write kind)
  | .change c => c.writes
  | .addEntity _ x | .upsertEntity x => (Element.ofEntity? kind x).toList.map .filed
  | .addEntities xs => (xs.filterMap (Element.ofEntity? kind)).map .filed
  | .replaceEntities xs => .cleared :: (xs.filterMap (Element.ofEntity? kind)).map .filed
  | .evict id => [.removed id]

theorem Resolves.writes_eq {kind : EntityKind} {op : Operation kind} {c : Change kind} (h : Resolves op c) :
    op.writes = c.writes := by
  have hall : ∀ es : List (Element kind), (es.map (·.entity)).filterMap (Element.ofEntity? kind) = es := by
    intro es
    rw [List.filterMap_map]
    exact (List.filterMap_congr fun e _ => Element.ofEntity?_entity e).trans List.filterMap_some
  cases h with
  | change | evicted => rfl
  | added id e => simp [Operation.writes, Element.ofEntity?_entity, Change.writes, Step.writes]
  | upserted e => simp [Operation.writes, Element.ofEntity?_entity, Change.writes]
  | addedAll es => rw [Operation.writes, hall, Change.writes, Step.writes]
  | replaced es => rw [Operation.writes, hall, Change.writes]

namespace Of

variable {kind : EntityKind}

/-- The writes of an operation, if it was not refused. -/
def written (r : Of kind) (op : Operation kind) : List (Write kind) :=
  match r.perform op with
  | .ok _ => op.writes
  | .error _ => []

def history (r : Of kind) : List (Operation kind) → List (Write kind)
  | [] => []
  | op :: ops => r.written op ++ (r.afterOperation op).history ops

theorem history_append (r : Of kind) (ops ops' : List (Operation kind)) :
    r.history (ops ++ ops') = r.history ops ++ (r.operate ops).history ops' := by
  induction ops generalizing r with
  | nil => rfl
  | cons op ops ih => rw [List.cons_append, history, history, ih, List.append_assoc]; rfl

end Of

/-! ## What is filed is what was written -/

section
variable {kind : EntityKind}

theorem step_descending (l : List (String × Element kind)) (step : Step kind) :
    Listing.step .descendingOrderId l step = step.writes.foldl Write.on l := by
  cases step with
  | addAll es => exact (List.foldl_map (f := .filed) (g := Write.on)).symm
  | add | remove | clear => rfl

theorem steps_descending (l : List (String × Element kind)) (steps : List (Step kind)) :
    steps.foldl (Listing.step .descendingOrderId) l = (steps.flatMap Step.writes).foldl Write.on l := by
  rw [List.foldl_flatMap]
  exact congrArg (fun f => steps.foldl f l) (funext fun l => funext fun step => step_descending l step)

theorem entries_after_descending {s : Listing kind} {c : Change kind}
    (h : s.frozen = true → ∀ step, c ≠ .direct step) :
    (s.after .descendingOrderId c).entries = c.writes.foldl Write.on s.entries := by
  cases c with
  | direct step =>
    rw [Listing.after, if_neg fun hf => h hf step rfl]
    exact step_descending _ step
  | freeze | unfreeze | upsert => rfl
  | replaceAll es => exact (List.foldl_map (f := .filed) (g := Write.on)).symm
  | transaction steps => exact steps_descending _ steps

theorem entries_afterOperation {r : Of kind} (hp : r.val.policy = .descendingOrderId) (op : Operation kind) :
    (r.afterOperation op).listing.entries = (r.written op).foldl Write.on r.listing.entries := by
  obtain ⟨c, hc, hperform, hafter⟩ | ⟨e, herror, hafter⟩ := r.afterOperation_cases op
  · rw [hafter, Of.listing_after, hp, Of.written, hperform, hc.writes_eq]
    have hfrozen : r.listing.frozen = r.val.frozen := rfl
    cases hout : r.apply c with
    | error e =>
      obtain ⟨hf, ⟨step, rfl⟩, -⟩ := (r.apply_eq_error_iff c e).1 hout
      exact congrArg Listing.entries (if_pos hf)
    | ok r' =>
      refine entries_after_descending fun hf step hstep => ?_
      cases hout.symm.trans ((r.apply_eq_error_iff c _).2 ⟨hf, ⟨step, hstep⟩, rfl⟩)
  · rw [hafter, Of.written, herror]
    rfl

theorem entries_operate {r : Of kind} (hp : r.val.policy = .descendingOrderId) (ops : List (Operation kind)) :
    (r.operate ops).listing.entries = (r.history ops).foldl Write.on r.listing.entries := by
  induction ops generalizing r with
  | nil => rfl
  | cons op ops ih =>
    rw [Of.history, List.foldl_append, ← entries_afterOperation hp]
    exact ih ((r.policy_afterOperation op).trans hp)

end

/-! ## Orders -/

theorem id_eq_render (e : Element .order) : e.id = Decimal.render (number e).toInt := by
  obtain ⟨e, he⟩ := e
  cases e <;> cases he
  rfl

theorem id_eq_iff {a b : Element .order} : a.id = b.id ↔ number a = number b := by
  rw [id_eq_render, id_eq_render]
  exact ⟨fun h => Int64.toInt_inj.1 (Decimal.render_inj h), fun h => congrArg (Decimal.render ·.toInt) h⟩

namespace Write

theorem own_foldl {l : List (String × Element .order)} (h : Entries.Own l) (ws : List (Write .order)) :
    Entries.Own (ws.foldl on l) := by
  induction ws generalizing l with
  | nil => exact h
  | cons w ws ih =>
    refine ih ?_
    cases w with
    | filed e => exact h.file e
    | removed id => exact h.remove id
    | cleared => exact Entries.own_nil

theorem mem_foldl_iff {ws : List (Write .order)} {e : Element .order} :
    (e.id, e) ∈ ws.foldl on [] ↔ last (number e) ws = some e := by
  -- on the last write: it concerns the number of e, or it leaves the pair alone
  induction ws using List.reverseRecOn with
  | nil => simp [last]
  | append_singleton ws w ih =>
    rw [List.foldl_concat, last_concat]
    cases w with
    | filed x =>
      rw [on, (own_foldl Entries.own_nil ws).file_eq_put, Entries.mem_put, ih]
      by_cases hx : number x = number e
      · have hid : e.id = x.id := id_eq_iff.2 hx.symm
        simp [concerns, left?, hx, hid, eq_comm]
      · have hid : e.id ≠ x.id := fun h => hx (id_eq_iff.1 h).symm
        simp [concerns, hx, hid]
    | removed id =>
      rw [on, Entries.mem_remove, ih, id_eq_render]
      by_cases hid : id = Decimal.render (number e).toInt
      · simp [concerns, left?, hid]
      · simp [concerns, hid, Ne.symm hid]
    | cleared => simp [on, concerns, left?]

theorem number_of_last {n : Int64} {ws : List (Write .order)} {e : Element .order} (h : last n ws = some e) :
    number e = n := by
  obtain ⟨w, hw, hleft⟩ := Option.bind_eq_some_iff.1 h
  have hconcerns := (List.mem_filter.1 (List.mem_of_getLast? hw)).2
  cases w with
  | filed x =>
    cases hleft
    exact of_decide_eq_true hconcerns
  | removed | cleared => cases hleft

end Write

namespace Of

/-- A registry of orders that holds nothing yet. -/
def orders (id : String) : Of .order := .empty id .descendingOrderId fun _ => rfl

theorem pairwise_all {kind : EntityKind} {r : Of kind} (hp : r.val.policy = .descendingOrderId) :
    r.all.Pairwise fun a b => number b ≤ number a := by
  obtain ⟨r, rfl⟩ := r
  have hall : r.all = Policy.arrange .descendingOrderId r.store.values := congrArg (Policy.arrange · _) hp
  have := Policy.arrange_pairwise r.store.values
  rwa [← hall] at this

section
variable (id : String) (ops : List (Operation .order))

theorem policy_operate {kind : EntityKind} (r : Of kind) (ops : List (Operation kind)) :
    (r.operate ops).val.policy = r.val.policy := by
  induction ops generalizing r with
  | nil => rfl
  | cons op ops ih => exact (ih _).trans (r.policy_afterOperation op)

theorem entries_orders : ((orders id).operate ops).listing.entries = ((orders id).history ops).foldl Write.on [] :=
  entries_operate rfl ops

theorem own_orders : ((orders id).operate ops).val.Own := by
  rw [own_iff, entries_orders]
  exact Write.own_foldl Entries.own_nil _

variable {id ops}

theorem mem_orders {e : Element .order} :
    e ∈ ((orders id).operate ops).all ↔ Write.last (number e) ((orders id).history ops) = some e := by
  rw [mem_all, ← Write.mem_foldl_iff, ← entries_orders]
  constructor
  · rintro ⟨id', h⟩
    obtain rfl : id' = e.id := (own_iff _).1 (own_orders id ops) _ h
    exact h
  · intro h
    exact ⟨e.id, h⟩

theorem filter_orders (n : Int64) :
    ((orders id).operate ops).all.filter (number · = n) = (Write.last n ((orders id).history ops)).toList := by
  cases hn : Write.last n ((orders id).history ops) with
  | none =>
    refine List.filter_eq_nil_iff.2 fun e he hen => ?_
    rw [mem_orders, of_decide_eq_true hen, hn] at he
    cases he
  | some e =>
    obtain rfl := Write.number_of_last hn
    have hids : ∀ x : Element .order, decide (number x = number e) = decide (x.id = e.id) := fun x =>
      decide_eq_decide.2 id_eq_iff.symm
    rw [List.filter_congr fun x _ => hids x]
    exact filter_id_eq_singleton (nodup_ids (own_orders id ops)) (mem_orders.2 hn)

theorem pairwise_orders : ((orders id).operate ops).all.Pairwise fun a b => number b < number a := by
  have hnumbers := List.pairwise_map.1 (nodup_ids (own_orders id ops))
  have hsorted := pairwise_all (policy_operate (orders id) ops)
  refine (hsorted.and hnumbers).imp ?_
  rintro a b ⟨hle, hid⟩
  exact Int64.lt_of_le_of_ne hle fun h => hid (id_eq_iff.2 h.symm)

theorem all_orders_congr {ops' : List (Operation .order)}
    (h : ∀ n, Write.last n ((orders id).history ops') = Write.last n ((orders id).history ops)) :
    ((orders id).operate ops').all = ((orders id).operate ops).all := by
  have hmem : ∀ e, e ∈ ((orders id).operate ops').all ↔ e ∈ ((orders id).operate ops).all := fun e => by
    rw [mem_orders, mem_orders, h]
  have hnodup := fun ops => (nodup_ids (own_orders id ops)).of_map _
  have hperm := (List.perm_ext_iff_of_nodup (hnodup ops') (hnodup ops)).2 hmem
  refine hperm.eq_of_pairwise ?_ pairwise_orders pairwise_orders
  intro a b _ _ hba hab
  exact absurd hba (Int64.lt_asymm hab)

theorem history_concat (op : Operation .order) :
    (orders id).history (ops ++ [op]) = (orders id).history ops ++ ((orders id).operate ops).written op := by
  rw [history_append, history, history, List.append_nil]

theorem filter_afterOperation {op : Operation .order} {n : Int64} (h : ∀ w ∈ op.writes, w.concerns n = false) :
    (((orders id).operate ops).afterOperation op).all.filter (number · = n) =
      ((orders id).operate ops).all.filter (number · = n) := by
  have hwritten : (((orders id).operate ops).written op).filter (Write.concerns n) = [] := by
    refine List.filter_eq_nil_iff.2 fun w hw => ?_
    unfold written at hw
    split at hw
    · simp [h w hw]
    · cases hw
  have hconcat : ((orders id).operate ops).afterOperation op = (orders id).operate (ops ++ [op]) :=
    (List.foldl_concat afterOperation _ op ops).symm
  rw [hconcat, filter_orders, filter_orders, history_concat, Write.last, Write.last, List.filter_append, hwritten,
    List.append_nil]

end

end Of

/-- After any operations on a registry of orders, what is listed under a number
is what the last write that concerns the number left: the order, or nothing if
it was a removal. A look-up finds an order by the text of its number and by no
other. A write that does not concern a number leaves what is listed under it.
The numbers descend strictly, so orders of different numbers may arrive in any
order. -/
theorem last_written (id : String) (ops : List (Operation .order)) :
    let r := (Of.orders id).operate ops
    let ws := (Of.orders id).history ops
    (∀ n, r.all.filter (number · = n) = (Write.last n ws).toList) ∧
      (∀ s e, r.get? s = some e ↔ e ∈ r.all ∧ s = Decimal.render (number e).toInt) ∧
      (∀ op n, (∀ w ∈ op.writes, w.concerns n = false) →
        (r.afterOperation op).all.filter (number · = n) = r.all.filter (number · = n)) ∧
      r.all.Pairwise (fun a b => number b < number a) ∧
      ∀ ops', (∀ n, ((Of.orders id).history ops').filter (Write.concerns n) = ws.filter (Write.concerns n)) →
        ((Of.orders id).operate ops').all = r.all := by
  intro r ws
  refine ⟨Of.filter_orders, fun s e => ?_, fun op n h => Of.filter_afterOperation h, Of.pairwise_orders,
    fun ops' h => Of.all_orders_congr fun n => ?_⟩
  · rw [Of.get?_eq_some_iff (Of.own_orders id ops), id_eq_render, eq_comm (a := s)]
  · rw [Write.last, Write.last, h n]

/-- Orders below zero and at the limit, proposed under other ids and in either
order. -/
theorem last_written_rearranged :
    let low : Element .order := .ofOrder ⟨-3, "Ada", 0, .pending, ⟨[]⟩⟩
    let high : Element .order := .ofOrder ⟨Int64.maxValue, "Bob", 0, .pending, ⟨[]⟩⟩
    let r := (Of.orders "orders").operate [.change (.direct (.add "7" low)), .upsertEntity high.entity]
    let r' := (Of.orders "orders").operate [.upsertEntity high.entity, .change (.transaction [.add "8" low])]
    r.get? "-3" = some low ∧ r.get? "7" = none ∧ r'.all = r.all := by
  intro low high r r'
  obtain ⟨hlast, hget, -, -, hall⟩ :=
    last_written "orders" [.change (.direct (.add "7" low)), .upsertEntity high.entity]
  have hlow : low ∈ r.all := by
    have hmem : low ∈ r.all.filter (number · = -3) := by
      rw [hlast]
      exact List.mem_singleton_self low
    exact (List.mem_filter.1 hmem).1
  refine ⟨(hget "-3" low).2 ⟨hlow, by decide⟩, ?_, hall _ fun n => ?_⟩
  · cases hseven : r.get? "7" with
    | none => rfl
    | some e =>
      obtain ⟨he, hrender⟩ := (hget "7" e).1 hseven
      have hnumber : number e = 7 :=
        Int64.toInt_inj.1 (Decimal.render_inj (hrender.symm.trans (by decide : "7" = Decimal.render (7 : Int64).toInt)))
      have hmem : e ∈ r.all.filter (number · = 7) := List.mem_filter.2 ⟨he, decide_eq_true hnumber⟩
      rw [hlast] at hmem
      cases hmem
  · change [Write.filed high, .filed low].filter (Write.concerns n) =
      [Write.filed low, .filed high].filter (Write.concerns n)
    by_cases hlown : number low = n
    · have hhighn : number high ≠ n := fun h => absurd (hlown.trans h.symm) (by decide)
      simp [Write.concerns, hlown, hhighn]
    · simp [List.filter_cons, Write.concerns, hlown]

end OrderDesk.Registry
