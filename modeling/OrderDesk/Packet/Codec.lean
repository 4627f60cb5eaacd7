import OrderDesk.Packet.Error
import OrderDesk.Packet.Shape
import OrderDesk.Shape.OfDocument

/-!
# The wire text of packets

A packet is written as an envelope, with the members of its body in order of
their names. Reading takes the envelope from the text first, then looks up the
id, and then reads the body.
-/

namespace OrderDesk

def Shape.print {α : Type} (shape : Shape α) (a : α) : Bytes := (shape.toJson a).print

namespace Packet

def toEnvelope (p : Packet) : Envelope := ⟨p.id, p.bodyJson.sorted⟩

def ofEnvelope (e : Envelope) : Except ProtocolError Packet :=
  match PacketKind.ofId? e.packetId with
  | none => .error (.unknownPacketId e.packetId)
  | some kind => (ofBodyJson kind e.data).mapError (.decode ∘ .shape)

def encode (p : Packet) : Bytes := Envelope.shape.print p.toEnvelope

def decode (bytes : Bytes) : Except ProtocolError Packet := do
  ofEnvelope (← (Envelope.shape.ofBytes bytes).mapError .decode)

end Packet

end OrderDesk
