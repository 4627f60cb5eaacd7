import OrderDesk.Packet.Codec
import OrderDesk.Proofs.Shape.RoundTrip

/-!
# Packets on the wire

Every packet is read back from its text. The body of a packet opens at most 12
levels and the envelope one more, far fewer than a reader allows.
-/

namespace OrderDesk

open Json (Plain)

/-! ## The shapes of bodies -/

theorem MenuOption.fits (depth : Nat) : MenuOption.shape.Fits (depth + 1) := by
  simp [MenuOption.shape, Width.signed64]

theorem OptionGroup.fits (depth : Nat) : OptionGroup.shape.Fits (depth + 3) := by
  simp [OptionGroup.shape, MenuOption.fits]

theorem Menu.fits (depth : Nat) : Menu.shape.Fits (depth + 5) := by
  simp [Menu.shape, Width.signed64, OptionGroup.fits]

theorem Category.fits (depth : Nat) : Category.shape.Fits (depth + 7) := by
  simp [Category.shape, Menu.fits]

theorem SelectedOption.fits (depth : Nat) : SelectedOption.shape.Fits (depth + 2) := by
  simp [SelectedOption.shape, MenuOption.fits]

theorem OrderItem.fits (depth : Nat) : OrderItem.shape.Fits (depth + 6) := by
  simp [OrderItem.shape, Width.unsigned32, Menu.fits, SelectedOption.fits]

theorem Cart.fits (depth : Nat) : Cart.shape.Fits (depth + 8) := by
  simp [Cart.shape, OrderItem.fits]

theorem Order.fits (depth : Nat) : Order.shape.Fits (depth + 9) := by
  simp [Order.shape, Width.signed64, Width.unsigned64, OrderStatus.shape, Cart.fits]

theorem Entity.fits (depth : Nat) : Entity.shape.Fits (depth + 10) := by
  intro kind
  cases kind with
  | order => exact Order.fits depth
  | menu => exact Menu.fits (depth + 4)
  | category => exact Category.fits (depth + 2)
  | menuOption => exact MenuOption.fits (depth + 8)
  | optionGroup => exact OptionGroup.fits (depth + 6)

theorem HandShake.fits (depth : Nat) : HandShake.shape.Fits (depth + 1) := by
  simp [HandShake.shape]

theorem Hello.fits (depth : Nat) : Hello.shape.Fits (depth + 2) := by
  simp [Hello.shape, Width.byte]

theorem KeyExchange.fits (depth : Nat) : KeyExchange.shape.Fits (depth + 2) := by
  simp [KeyExchange.shape, Width.byte]

theorem EncryptComplete.fits (depth : Nat) : EncryptComplete.shape.Fits (depth + 1) := by
  simp [EncryptComplete.shape, Width.unsigned64]

theorem RequestData.fits (depth : Nat) : RequestData.shape.Fits (depth + 1) := by
  simp [RequestData.shape]

theorem ResponseData.fits (depth : Nat) : ResponseData.shape.Fits (depth + 12) := by
  simp [ResponseData.shape, Entity.fits]

theorem DataAdded.fits (depth : Nat) : DataAdded.shape.Fits (depth + 11) := by
  simp [DataAdded.shape, Entity.fits]

theorem DataDeleted.fits (depth : Nat) : DataDeleted.shape.Fits (depth + 1) := by
  simp [DataDeleted.shape]

theorem OrderStatusChanged.fits (depth : Nat) : OrderStatusChanged.shape.Fits (depth + 10) := by
  simp [OrderStatusChanged.shape, Order.fits]

theorem OrderUpdated.fits (depth : Nat) : OrderUpdated.shape.Fits (depth + 10) := by
  simp [OrderUpdated.shape, Order.fits]

/-! ## The envelope -/

@[simp] theorem mapError_ok {ε δ α : Type} (f : ε → δ) (a : α) : (Except.ok a).mapError f = .ok a := rfl

@[simp] theorem mapError_error {ε δ α : Type} (f : ε → δ) (e : ε) :
    (Except.error e : Except ε α).mapError f = .error (f e) := rfl

/-- The levels that a reader allows below the envelope. -/
def bodyDepth : Nat := 126

theorem Envelope.ofBytes_print {e : Envelope} (hd : Plain bodyDepth e.data) (hs : e.data.sorted = e.data) :
    Envelope.shape.ofBytes (Envelope.shape.print e) = .ok e := by
  have hplain : Plain (bodyDepth + 1) (Envelope.shape.toJson e) := by
    refine .object fun m hm => ?_
    rcases List.mem_cons.1 hm with rfl | hm
    · exact .string e.packetId
    · rw [List.mem_singleton.1 hm]
      exact hd
  have hvalue : e.data.document.value 126 = .ok e.data := Json.Document.value_document hd
  have hdocument : Envelope.shape.ofDocument Json.maxDepth (Envelope.shape.toJson e).document = .ok e := by
    simp [Envelope.shape, Shape.toJson, Shape.fieldsToJson, Json.document, Json.memberDocuments, Json.maxDepth,
      Shape.ofDocument, Shape.placeDocument, Fields.blank, Fields.complete, Json.Lexeme.read, Defect.ofText,
      Json.Document.close, Json.Document.check, hvalue, hs, Functor.map, Except.map, bind, Except.bind,
      pure, Except.pure]
  simp [Shape.ofBytes, Shape.print, Json.Document.ofBytes_print hplain, hdocument, Json.Document.skipBlanks, bind,
    Except.bind, pure, Except.pure]

namespace Packet

-- ten bodies, each written and read by one shape
theorem exists_body (p : Packet) : ∃ (α : Type) (shape : Shape α) (make : α → Packet) (a : α),
    shape.Fits bodyDepth ∧ make a = p ∧ p.bodyJson = shape.toJson a ∧
      ∀ data, ofBodyJson p.kind data = make <$> shape.ofJson .tree data := by
  cases p with
  | handShake a => exact ⟨_, HandShake.shape, handShake, a, HandShake.fits 125, rfl, rfl, fun _ => rfl⟩
  | hello a => exact ⟨_, Hello.shape, hello, a, Hello.fits 124, rfl, rfl, fun _ => rfl⟩
  | keyExchange a => exact ⟨_, KeyExchange.shape, keyExchange, a, KeyExchange.fits 124, rfl, rfl, fun _ => rfl⟩
  | encryptComplete a =>
    exact ⟨_, EncryptComplete.shape, encryptComplete, a, EncryptComplete.fits 125, rfl, rfl, fun _ => rfl⟩
  | requestData a => exact ⟨_, RequestData.shape, requestData, a, RequestData.fits 125, rfl, rfl, fun _ => rfl⟩
  | responseData a => exact ⟨_, ResponseData.shape, responseData, a, ResponseData.fits 114, rfl, rfl, fun _ => rfl⟩
  | dataAdded a => exact ⟨_, DataAdded.shape, dataAdded, a, DataAdded.fits 115, rfl, rfl, fun _ => rfl⟩
  | dataDeleted a => exact ⟨_, DataDeleted.shape, dataDeleted, a, DataDeleted.fits 125, rfl, rfl, fun _ => rfl⟩
  | orderStatusChanged a =>
    exact ⟨_, OrderStatusChanged.shape, orderStatusChanged, a, OrderStatusChanged.fits 116, rfl, rfl, fun _ => rfl⟩
  | orderUpdated a => exact ⟨_, OrderUpdated.shape, orderUpdated, a, OrderUpdated.fits 116, rfl, rfl, fun _ => rfl⟩

theorem plain_bodyJson (p : Packet) : Plain bodyDepth p.bodyJson := by
  obtain ⟨α, shape, make, a, hfits, -, hjson, -⟩ := p.exists_body
  rw [hjson]
  exact shape.plain_toJson hfits a

theorem ofBodyJson_sorted (p : Packet) : ofBodyJson p.kind p.bodyJson.sorted = .ok p := by
  obtain ⟨α, shape, make, a, hfits, hmake, hjson, hread⟩ := p.exists_body
  rw [hread, hjson, shape.ofJson_sorted hfits, ← hmake]
  rfl

theorem kind_of_ofBodyJson {kind : PacketKind} {data : Json} {p : Packet} (h : ofBodyJson kind data = .ok p) :
    p.kind = kind := by
  cases kind <;>
  · simp only [ofBodyJson, Functor.map, Except.map] at h
    split at h
    · cases h
    · cases h
      rfl

theorem ofBytes_encode (p : Packet) : Envelope.shape.ofBytes p.encode = .ok p.toEnvelope :=
  Envelope.ofBytes_print p.plain_bodyJson.sorted (Json.sorted_sorted _)

theorem ofEnvelope_toEnvelope (p : Packet) : ofEnvelope p.toEnvelope = .ok p := by
  have hid : PacketKind.ofId? p.toEnvelope.packetId = some p.kind := PacketKind.ofId?_id p.kind
  have hbody : ofBodyJson p.kind p.toEnvelope.data = .ok p := p.ofBodyJson_sorted
  simp [ofEnvelope, hid, hbody]

theorem ofEnvelope_eq_ok {e : Envelope} {p : Packet} (h : ofEnvelope e = .ok p) : e.packetId = p.id := by
  unfold ofEnvelope at h
  cases hkind : PacketKind.ofId? e.packetId with
  | none =>
    rw [hkind] at h
    cases h
  | some kind =>
    rw [hkind] at h
    have hid : kind.id = e.packetId := by simpa using List.find?_some hkind
    cases hbody : ofBodyJson kind e.data with
    | error m => simp [hbody] at h
    | ok q =>
      obtain rfl : q = p := by simpa [hbody] using h
      rw [id, kind_of_ofBodyJson hbody, hid]

theorem decode_eq_ok {bytes : Bytes} {p : Packet} (h : decode bytes = .ok p) :
    ∃ e, Envelope.shape.ofBytes bytes = .ok e ∧ ofEnvelope e = .ok p := by
  unfold decode at h
  cases hbytes : Envelope.shape.ofBytes bytes with
  | error d => simp [hbytes, bind, Except.bind] at h
  | ok e =>
    refine ⟨e, rfl, ?_⟩
    simpa [hbytes, bind, Except.bind] using h

theorem decode_encode (p : Packet) : decode p.encode = .ok p := by
  simp [decode, p.ofBytes_encode, p.ofEnvelope_toEnvelope, bind, Except.bind]

/-- The text of a packet decodes to that packet, so no two packets share a
text. Any text that decodes to a packet is an envelope with the id of that
packet, which survives another turn. -/
theorem wire_faithful :
    (∀ p : Packet, decode p.encode = .ok p) ∧ (∀ p q : Packet, p.encode = q.encode → p = q) ∧
      ∀ (bytes : Bytes) (p : Packet), decode bytes = .ok p →
        (∃ e, Envelope.shape.ofBytes bytes = .ok e ∧ e.packetId = p.id) ∧ decode p.encode = .ok p := by
  refine ⟨decode_encode, ?_, ?_⟩
  · intro p q hpq
    have hdecoded : (.ok p : Except ProtocolError Packet) = .ok q := by rw [← decode_encode p, hpq, decode_encode q]
    cases hdecoded
    rfl
  · intro bytes p h
    obtain ⟨e, hbytes, he⟩ := decode_eq_ok h
    exact ⟨⟨e, hbytes, ofEnvelope_eq_ok he⟩, decode_encode p⟩

/-- A text with blanks, an escape, a field that no packet knows and the body
before the id. -/
def spaced : Bytes :=
  Bytes.ofString " \x7b\"data\": \x7b\"color\": [1, null], \"registry_id\": \"me\\u006eus\"\x7d, " ++
    Bytes.ofString "\"packet_id\": \"request_data\"\x7d"

theorem wire_faithful_spaced :
    decode spaced = .ok (.requestData ⟨"menus"⟩) ∧
      (∃ e, Envelope.shape.ofBytes spaced = .ok e ∧ e.packetId = "request_data") ∧
      decode (Packet.requestData ⟨"menus"⟩).encode = .ok (.requestData ⟨"menus"⟩) := by
  have hsome : (decode spaced).toOption = some (.requestData ⟨"menus"⟩) := by decide +kernel
  have hspaced : decode spaced = .ok (.requestData ⟨"menus"⟩) := by
    cases h : decode spaced with
    | error e =>
      rw [h] at hsome
      cases hsome
    | ok p =>
      rw [h] at hsome
      cases hsome
      rfl
  exact ⟨hspaced, wire_faithful.2.2 spaced _ hspaced⟩

end Packet

end OrderDesk
