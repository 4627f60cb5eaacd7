import OrderDesk.Proofs.Server.Run

/-!
# Refused packets

A packet that the server refuses changes no registry, reaches no peer and
publishes nothing. The number of the next order stays too, but for one kind of
refusal: an order that is offered to a registry of another kind is refused
only after its number was taken note of.
-/

namespace OrderDesk.Server

/-- The order of a packet that offers it to a registry of another kind. -/
def misfiled? (d : Directory) : Packet → Option Order
  | .dataAdded ⟨registryId, .order o⟩ => ((d.get? registryId).filter fun r => r.kind ≠ .order).map fun _ => o
  | _ => none

/-- The server after it refused a packet. -/
def afterRefusal (s : Server) (p : Packet) : Server :=
  match misfiled? s.directory p with
  | some o => s.numberAbove o.orderId
  | none => s

variable {s : Server} {sender : ConnectionId} {e : NodeError}

theorem misfiled?_eq_some_iff {d : Directory} {registryId : String} {x : Entity} {o : Order} :
    misfiled? d (.dataAdded ⟨registryId, x⟩) = some o ↔
      x = .order o ∧ ∃ r, d.get? registryId = some r ∧ r.kind ≠ .order := by
  cases x with
  | order o' => simp [misfiled?, Option.filter_eq_some_iff, and_comm]
  | _ => simp [misfiled?]

theorem upsertEntity_eq_error_iff {r : Registry} {x : Entity} {e : RegistryError} :
    r.upsertEntity x = .error e ↔ r.kind ≠ x.kind ∧ e = .typeMismatch r.id r.kind x.kind := by
  by_cases hk : x.kind = r.kind
  · have hx : Element.ofEntity? r.kind x = some ⟨x, hk⟩ := Element.ofEntity?_entity ⟨x, hk⟩
    have hok : r.upsertEntity x = .ok (r.upsert ⟨x, hk⟩) := by
      rw [Registry.upsertEntity, Registry.element, hx]
      rfl
    simp [hok, hk]
  · have hx : Element.ofEntity? r.kind x = none := dif_neg hk
    simp [Registry.upsertEntity, Registry.element, hx, Ne.symm hk, eq_comm]

-- the kind of an added entity is compared with the registry's after the counter went up
theorem takeAdded_refused {added : DataAdded} (h : (s.takeAdded added).2 = .error e) :
    (s.takeAdded added).1 = s.afterRefusal (.dataAdded added) := by
  obtain ⟨registryId, x⟩ := added
  unfold takeAdded at h ⊢
  cases hr : s.directory.require registryId with
  | error _ =>
    have hget : s.directory.get? registryId = none := by
      unfold Directory.require at hr
      split at hr
      · cases hr
      · next hget => exact hget
    cases x <;> simp [afterRefusal, misfiled?, hget, refuse]
  | ok r =>
    rw [hr] at h
    dsimp only at h ⊢
    cases hup : r.upsertEntity x with
    | ok r' =>
      rw [hup] at h
      cases h
    | error _ =>
      have hget := Directory.require_eq_ok_iff.1 hr
      cases x with
      | order o =>
        have hk : r.kind ≠ .order := (upsertEntity_eq_error_iff.1 hup).1
        have hmis : misfiled? s.directory (.dataAdded ⟨registryId, .order o⟩) = some o :=
          misfiled?_eq_some_iff.2 ⟨rfl, r, hget, hk⟩
        rw [afterRefusal, hmis]
        rfl
      | _ => rfl

theorem takeAdded_misfiled {added : DataAdded} {o : Order} (h : misfiled? s.directory (.dataAdded added) = some o) :
    ∃ e, (s.takeAdded added).2 = .error e := by
  obtain ⟨registryId, x⟩ := added
  obtain ⟨rfl, r, hget, hk⟩ := misfiled?_eq_some_iff.1 h
  have hup : r.upsertEntity (.order o) = .error (.typeMismatch r.id r.kind .order) :=
    upsertEntity_eq_error_iff.2 ⟨hk, rfl⟩
  refine ⟨.registry (.typeMismatch r.id r.kind .order), ?_⟩
  rw [takeAdded, Directory.require_eq_ok_iff.2 hget]
  simp only [hup]
  rfl

-- any other packet is checked before anything is written
theorem handled_refused {p : Packet} {out : Outcome} (hp : p.kind ≠ .dataAdded) (h : Handled s sender p out)
    (he : out.2 = .error e) : out.1 = s := by
  cases h with
  | refused | withoutOrders | exhausted => rfl
  | mismatched => exact absurd rfl hp
  | answered | dropped | checkedOut | resubmitted | loaded | added | deleted => cases he

theorem afterRefusal_of_kind {p : Packet} (hp : p.kind ≠ .dataAdded) : s.afterRefusal p = s := by
  cases p with
  | dataAdded => exact absurd rfl hp
  | _ => rfl

/-- **Refusals.** A refused packet leaves the server as it was, registries,
queues of the peers, events and counter, unless the packet offers an order to a
registry of another kind: such a packet is always refused, and leaves the
counter above the order's number and everything else as it was. -/
theorem handle_refused (s : Server) (sender : ConnectionId) (p : Packet) :
    (∀ e, (s.handle sender p).2 = .error e → (s.handle sender p).1 =
      match misfiled? s.directory p with
      | some o => s.numberAbove o.orderId
      | none => s) ∧
    ∀ o, misfiled? s.directory p = some o → ∃ e, (s.handle sender p).2 = .error e := by
  by_cases hp : p.kind = .dataAdded
  · cases p with
    | dataAdded added => exact ⟨fun _ => takeAdded_refused, fun _ => takeAdded_misfiled⟩
    | _ => cases hp
  · refine ⟨fun e he => ?_, fun o ho => ?_⟩
    · exact (handled_refused hp (s.handled sender p) he).trans (afterRefusal_of_kind hp).symm
    · cases p with
      | dataAdded => exact absurd rfl hp
      | _ => cases ho

def orderAmongMenus : Packet :=
  .dataAdded ⟨RegistryId.menus, .order { Order.checkout "Ada" 0 .empty with orderId := 41 }⟩

theorem handle_refused_misfiled :
    ((start .standard).handle ⟨1⟩ orderAmongMenus).2 =
        .error (.registry (.typeMismatch RegistryId.menus .menu .order)) ∧
      ((start .standard).handle ⟨1⟩ orderAmongMenus).1 = (start .standard).numberAbove 41 := by
  have hrefused : ((start .standard).handle ⟨1⟩ orderAmongMenus).2 =
      .error (.registry (.typeMismatch RegistryId.menus .menu .order)) := rfl
  exact ⟨hrefused, (handle_refused (start .standard) ⟨1⟩ orderAmongMenus).1 _ hrefused⟩

/-- A packet that was refused can leave another server than there was: the
next order gets the number 42 and not 1. -/
theorem refused_and_counted :
    ¬ ∀ (s : Server) (sender : ConnectionId) (p : Packet) (e : NodeError),
      (s.handle sender p).2 = .error e → (s.handle sender p).1 = s := by
  intro h
  have hsame := h (start .standard) ⟨1⟩ orderAmongMenus (.registry (.typeMismatch RegistryId.menus .menu .order)) rfl
  have hcounter : ((start .standard).handle ⟨1⟩ orderAmongMenus).1.nextOrderId = 42 := rfl
  rw [hsame] at hcounter
  exact absurd hcounter (by decide)

end OrderDesk.Server
