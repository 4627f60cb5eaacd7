import OrderDesk.Proofs.Packet.Codec
import OrderDesk.Proofs.Shape.Describes

/-!
# Which bodies are accepted

The body of a packet is accepted if it describes one, and that one is read.
Nothing is filled in for a field that is not there, and no number is bent to
fit.
-/

namespace OrderDesk

open Shape

def PacketKind.Describes (kind : PacketKind) (j : Json) (p : Packet) : Prop :=
  match kind with
  | .handShake => ∃ body, p = .handShake body ∧ HandShake.shape.Describes j body
  | .hello => ∃ body, p = .hello body ∧ Hello.shape.Describes j body
  | .keyExchange => ∃ body, p = .keyExchange body ∧ KeyExchange.shape.Describes j body
  | .encryptComplete => ∃ body, p = .encryptComplete body ∧ EncryptComplete.shape.Describes j body
  | .requestData => ∃ body, p = .requestData body ∧ RequestData.shape.Describes j body
  | .responseData => ∃ body, p = .responseData body ∧ ResponseData.shape.Describes j body
  | .dataAdded => ∃ body, p = .dataAdded body ∧ DataAdded.shape.Describes j body
  | .dataDeleted => ∃ body, p = .dataDeleted body ∧ DataDeleted.shape.Describes j body
  | .orderStatusChanged => ∃ body, p = .orderStatusChanged body ∧ OrderStatusChanged.shape.Describes j body
  | .orderUpdated => ∃ body, p = .orderUpdated body ∧ OrderUpdated.shape.Describes j body

namespace Packet

theorem map_ofJson_eq_ok_iff {α : Type} {shape : Shape α} {depth : Nat} (h : shape.Fits depth) {j : Json}
    (hj : j.sorted = j) (make : α → Packet) (p : Packet) :
    make <$> shape.ofJson .tree j = .ok p ↔ ∃ body, p = make body ∧ shape.Describes j body := by
  rw [map_eq_ok_iff]
  refine exists_congr fun body => ?_
  rw [shape.ofJson_eq_ok_iff h hj, and_comm, eq_comm]

/-- **Bodies.** An untyped value is accepted as the body of a packet exactly if
it describes one, and it describes at most one. -/
theorem bodies_exact (kind : PacketKind) {j : Json} (hj : j.sorted = j) :
    (∀ p, ofBodyJson kind j = .ok p ↔ kind.Describes j p) ∧
      ∀ p q, kind.Describes j p → kind.Describes j q → p = q := by
  have hread : ∀ p, ofBodyJson kind j = .ok p ↔ kind.Describes j p := by
    intro p
    cases kind with
    | handShake => exact map_ofJson_eq_ok_iff (HandShake.fits 0) hj handShake p
    | hello => exact map_ofJson_eq_ok_iff (Hello.fits 0) hj hello p
    | keyExchange => exact map_ofJson_eq_ok_iff (KeyExchange.fits 0) hj keyExchange p
    | encryptComplete => exact map_ofJson_eq_ok_iff (EncryptComplete.fits 0) hj encryptComplete p
    | requestData => exact map_ofJson_eq_ok_iff (RequestData.fits 0) hj requestData p
    | responseData => exact map_ofJson_eq_ok_iff (ResponseData.fits 0) hj responseData p
    | dataAdded => exact map_ofJson_eq_ok_iff (DataAdded.fits 0) hj dataAdded p
    | dataDeleted => exact map_ofJson_eq_ok_iff (DataDeleted.fits 0) hj dataDeleted p
    | orderStatusChanged => exact map_ofJson_eq_ok_iff (OrderStatusChanged.fits 0) hj orderStatusChanged p
    | orderUpdated => exact map_ofJson_eq_ok_iff (OrderUpdated.fits 0) hj orderUpdated p
  refine ⟨hread, fun p q hp hq => ?_⟩
  have heq := ((hread p).2 hp).symm.trans ((hread q).2 hq)
  exact Except.ok.inj heq

/-- An option in an array, in an entity in an array, beside a member that no
packet knows. -/
def addition : Json :=
  .object [("color", .null),
    ("entity", .array [.string "option", .array [.string "shot", .string "Extra shot", .number (.integer 500)]]),
    ("registry_id", .string "options")]

theorem describes_addition :
    PacketKind.dataAdded.Describes addition (.dataAdded ⟨"options", .menuOption ⟨"shot", "Extra shot", 500⟩⟩) := by
  have hoption : MenuOption.shape.Describes
      (.array [.string "shot", .string "Extra shot", .number (.integer 500)]) ⟨"shot", "Extra shot", 500⟩ :=
    .inr ⟨_, rfl, _, _, rfl, rfl, _, _, rfl, rfl, _, _, rfl, rfl, rfl⟩
  have hentity : Entity.shape.Describes
      (.array [.string "option", .array [.string "shot", .string "Extra shot", .number (.integer 500)]])
      (.menuOption ⟨"shot", "Extra shot", 500⟩) :=
    ⟨.menuOption, _, rfl, .inr ⟨_, rfl, hoption⟩⟩
  exact ⟨_, rfl, .inl ⟨_, rfl, ⟨_, by simp, rfl⟩, ⟨_, by simp, hentity⟩, trivial⟩⟩

theorem bodies_exact_addition :
    addition.sorted = addition ∧
      ofBodyJson .dataAdded addition = .ok (.dataAdded ⟨"options", .menuOption ⟨"shot", "Extra shot", 500⟩⟩) :=
  ⟨rfl, ((bodies_exact .dataAdded rfl).1 _).2 describes_addition⟩

end Packet

end OrderDesk
