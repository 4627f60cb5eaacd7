import OrderDesk.Proofs.Client.Seclusion
import OrderDesk.Proofs.Packet.Codec
import OrderDesk.Proofs.Server.Seclusion

/-!
# Nothing acts before encryption

What both ends make of the frames of a connection whose handshake is not
complete: whatever the frames are, and whatever else goes on at that end, the
registries, the counter and the other connections do not show it.
-/

namespace OrderDesk

/-- A server and a kiosk, each with any moves behind it.

On the server nothing waits for a connection that was not admitted, and a frame
on it touches nothing but the connection, unless the frame admits it. On the
kiosk no move changes a registry before the connection has a license.

At both ends a packet out of place in the handshake ends the connection with its
session failed and nothing of it left in the table, in the mailboxes or in the
outbox, and a frame that opens and carries no packet counts, and does nothing
else. -/
theorem secluded_until_encrypted (suite : CipherSuite) (serverConfig : ServerConfig) (secret? : Option Key)
    (shop : Directory) (serverDraws : Draws) {ms : List ServerNode.Move}
    (hids : (ms.filterMap ServerNode.Move.accepted?).Nodup)
    (clientConfig : ClientConfig) (registries : Directory) (clientDraws : Draws) (ms' : List Client.Move) :
    let started := ServerNode.start serverConfig secret? shop serverDraws
    let n := started.run suite ms
    let opened := Client.start clientConfig registries clientDraws
    let c := opened.run suite ms'
    (∀ id, ¬started.Admitted suite id ms → n.server.peers.waiting id = [] ∧
      ∀ now frame, n.Admits suite id now frame ∨ n.server.Untouched (n.receive suite id now frame).1.server id) ∧
    (∀ m, (c.after suite m).kiosk.directory = c.kiosk.directory ∨
      ∃ connection, c.connection? = some connection ∧ opened.Licensed suite ms' connection.generation) ∧
    (∀ g ∈ n.guests, ∀ now frame,
      let session := g.connection.session
      let t := g.connection.receive suite n.server n.draws now frame
      n.receive suite g.connection.id now frame = (n.settle t, t.written) ∧
      (session.Misplaces suite frame → t.connection.session.state = .failed ∧
        t = (ServerConnection.Turn.stay n.server g.connection session.counted.fail n.draws).finish ∧
        g.connection.Over n.server t) ∧
      (session.Garbles suite frame → t = .stay n.server g.connection session.counted n.draws)) ∧
    ∀ connection, c.connection? = some connection → ∀ frame,
      let session := connection.session
      let left := Client.reached suite session c.draws frame
      let t := c.receive suite frame
      (session.Misplaces suite frame → left.state = .failed ∧
        t = Client.Turn.finish (.stay (c.resume connection left)) connection ∧
        c.Over connection.generation t) ∧
      (session.Garbles suite frame → t = .stay (c.resume connection session.counted)) := by
  intro started n opened c
  have hreached := ServerNode.reached_start suite serverConfig secret? shop serverDraws hids
  refine ⟨fun id hnot => ServerNode.unadmitted_secluded suite serverConfig secret? shop serverDraws hids hnot,
    Client.directory_eq_or_licensed suite clientConfig registries clientDraws ms', ?_, ?_⟩
  · intro g hg now frame session t
    have hopen := hreached.hosts.isOpen g hg
    refine ⟨ServerNode.receive_guest suite hreached.hosts hg now frame, fun hmisplaces => ?_, fun hgarbles => ?_⟩
    · have ht : t = (ServerConnection.Turn.stay n.server g.connection session.counted.fail n.draws).finish :=
        g.connection.receive_misplaced hopen hmisplaces n.server n.draws now
      refine ⟨congrArg (·.connection.session.state) ht, ht, ?_⟩
      rw [ht]
      exact g.connection.over_finish n.server session.counted.fail n.draws []
    · exact g.connection.receive_garbled hopen hgarbles n.server n.draws now
  · intro connection h frame session left t
    refine ⟨fun hmisplaces => ?_, fun hgarbles => Client.receive_garbled h hgarbles⟩
    have hleft : left = session.counted.fail := Client.reached_misplaced hmisplaces c.draws
    have ht : t = Client.Turn.finish (.stay (c.resume connection left)) connection := by
      rw [hleft]
      exact Client.receive_misplaced h hmisplaces
    refine ⟨congrArg Session.state hleft, ht, ?_⟩
    rw [ht]
    exact c.over_finish connection left

/-- An order in the clear. Nothing needs its text. -/
@[irreducible]
def intrusion : Bytes := (Packet.dataAdded ⟨RegistryId.orders, .order (.checkout "Ada" 0 .empty)⟩).encode

theorem misplaces_intrusion {suite : CipherSuite} {s : Session} (h : s.state = .unencrypted) :
    s.Misplaces suite intrusion := by
  obtain ⟨party, phase⟩ := s
  cases phase with
  | unencrypted =>
    have hdecode := Packet.decode_encode (.dataAdded ⟨RegistryId.orders, .order (.checkout "Ada" 0 .empty)⟩)
    rw [← intrusion] at hdecode
    refine ⟨intrusion, _, rfl, hdecode, rfl, ?_⟩
    cases party <;> rfl
  | _ => cases h

/-- An order sent in the clear comes to nothing at either end, and no packet
comes of no bytes. -/
theorem secluded_until_encrypted_intruded :
    let started := ServerNode.start .standard none .standard (.start fun _ => .replicate 32 7)
    let n := started.run .standard [.accept ⟨1⟩]
    let guest : ServerConnection := ⟨⟨1⟩, 0, .server (.replicate 32 7), true⟩
    let c := (Client.start .standard .standard (.start fun _ => .replicate 32 9)).run .standard [.connect]
    let link : ClientConnection := ⟨0, .client ClientConfig.standard.clientId, 0⟩
    (List.filterMap ServerNode.Move.accepted? [.accept ⟨1⟩]).Nodup ∧
      n.server.peers.waiting ⟨1⟩ = [] ∧
      n.server.Untouched (n.receive .standard ⟨1⟩ 0 intrusion).1.server ⟨1⟩ ∧
      (guest.receive .standard n.server n.draws 0 intrusion).connection.session.state = .failed ∧
      guest.Over n.server (guest.receive .standard n.server n.draws 0 intrusion) ∧
      (c.after .standard (.receive intrusion)).kiosk.directory = c.kiosk.directory ∧
      (Client.reached .standard link.session c.draws intrusion).state = .failed ∧
      c.receive .standard [] = .stay (c.resume link link.session) := by
  intro started n guest c link
  have hguest : (⟨guest, 0⟩ : Guest) ∈ n.guests := List.mem_singleton.2 rfl
  have hlink : c.connection? = some link := rfl
  have hmisplaced : guest.session.Misplaces .standard intrusion := misplaces_intrusion rfl
  have hempty : Packet.decode [] = .error (.decode (.text .truncated)) := rfl
  have hgarbled : link.session.Garbles .standard [] := ⟨[], _, rfl, hempty⟩
  have hids : (List.filterMap ServerNode.Move.accepted? [.accept ⟨1⟩]).Nodup := by decide
  have hunadmitted : ¬started.Admitted .standard ⟨1⟩ [.accept ⟨1⟩] := by
    rintro ⟨pre, now, frame, post, heq, -⟩
    have hmem : ServerNode.Move.receive ⟨1⟩ now frame ∈ [ServerNode.Move.accept ⟨1⟩] := by simp [heq]
    cases List.mem_singleton.1 hmem
  obtain ⟨hserver, hclient, hguests, hlinks⟩ := secluded_until_encrypted .standard .standard none .standard
    (.start fun _ => .replicate 32 7) hids .standard .standard (.start fun _ => .replicate 32 9) [.connect]
  obtain ⟨hwaiting, hframes⟩ := hserver ⟨1⟩ hunadmitted
  have hturn := (hguests ⟨guest, 0⟩ hguest 0 intrusion).2.1 hmisplaced
  have hlinked := hlinks link hlink
  refine ⟨hids, hwaiting, (hframes 0 intrusion).resolve_left ?_, hturn.1, hturn.2.2,
    (hclient (.receive intrusion)).resolve_right ?_, ((hlinked intrusion).1 (misplaces_intrusion rfl)).1,
    (hlinked []).2 hgarbled⟩
  · rintro ⟨g, hfind, haccepts⟩
    obtain rfl : ⟨guest, 0⟩ = g := Option.some.inj hfind
    exact guest.not_accepts_of_misplaces hmisplaced 0 _ haccepts
  · rintro ⟨connection, -, key, pre, frame, post, heq, -⟩
    have hmem : Client.Move.receive frame ∈ [Client.Move.connect] := by simp [heq]
    cases List.mem_singleton.1 hmem

end OrderDesk
