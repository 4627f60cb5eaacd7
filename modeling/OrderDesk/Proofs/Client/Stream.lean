import OrderDesk.Proofs.Client.Channels
import OrderDesk.Proofs.Client.Fifo
import OrderDesk.Proofs.Client.Seclusion

/-!
# What the link of a kiosk writes

A link writes the name of the kiosk and a key exchange, and once it is confirmed
one sealed stream: the packets of its channel and the answers to the server, in
the order of its turns.
Main results: `keeping_receive`, `keeping_forward`.
-/

namespace OrderDesk

namespace Kiosk

/-- What a kiosk answers a packet with; what it refuses gets no answer. -/
def answers (k : Kiosk) (p : Packet) : List Packet :=
  if p.kind.isAcceptedBy .client then (k.handle p).2.toOption.getD [] else []

theorem allSealed_answers (k : Kiosk) (p : Packet) : Packet.AllSealed (k.answers p) := by
  unfold answers
  split
  · cases p with
    | requestData request =>
      rw [handle]
      cases k.directory.answer request with
      | error e => exact Packet.allSealed_nil
      | ok replies =>
        intro q hq
        obtain ⟨snapshot, -, rfl⟩ := List.mem_map.1 hq
        rfl
    | responseData snapshot =>
      rw [handle, takeSnapshot]
      split <;> exact Packet.allSealed_nil
    | orderStatusChanged changed =>
      rw [handle, takeOrder]
      split
      · exact Packet.allSealed_nil
      · split <;> exact Packet.allSealed_nil
    | orderUpdated updated =>
      rw [handle, takeOrder]
      split
      · exact Packet.allSealed_nil
      · split <;> exact Packet.allSealed_nil
    | _ => exact Packet.allSealed_nil
  · exact Packet.allSealed_nil

end Kiosk

namespace Client

/-! ## What a link has written -/

section
variable (suite : CipherSuite)

/-- A key exchange wraps the session key for a server, and seals a nonce under
it. -/
def Wraps (key : Key) (exchange : KeyExchange) : Prop :=
  ∃ ephemeral serverPublic nonce, exchange =
    ⟨KeyTransport.wrapped suite ephemeral serverPublic key, KeyTransport.signedNonce suite key nonce⟩

/-- The name of the kiosk and the key exchange in the clear, and then one
stream. -/
structure Streams (x : Transcript) (handShake : HandShake) (exchange : KeyExchange) (key : Key) : Prop where
  wraps : Wraps suite key exchange
  stream : x.Streams suite key .client [(Packet.handShake handShake).encode, (Packet.keyExchange exchange).encode] []

/-- All that a link can have written. -/
inductive Written (x : Transcript) : Prop
  | nothing (h : x.Silent [])
  | begun (handShake : HandShake) (h : x.Silent [(Packet.handShake handShake).encode])
  | streamed (handShake : HandShake) (exchange : KeyExchange) (key : Key) (h : Streams suite x handShake exchange key)

/-- How far the session of a link has come shows in what the link has written. -/
inductive Voiced (x : Transcript) : Session → Prop
  | unencrypted (clientId : String) (handShake : HandShake) (h : x.Silent [(Packet.handShake handShake).encode]) :
    Voiced x ⟨.client clientId, .unencrypted⟩
  | keyExchanged (clientId : String) (cipher : FrameCipher) (handShake : HandShake) (exchange : KeyExchange) (key : Key)
    (hwraps : Wraps suite key exchange)
    (h : x.Silent [(Packet.handShake handShake).encode, (Packet.keyExchange exchange).encode])
    (hkey : cipher.sendKey = FrameCipher.frameKey suite key .client) (hsent : cipher.sent = .ofNat 0) :
    Voiced x ⟨.client clientId, .keyExchanged cipher⟩
  | encrypted (session : Session) (handShake : HandShake) (exchange : KeyExchange) (key : Key)
    (h : Streams suite x handShake exchange key) (hsends : session.Sends suite key .client x.said.length) :
    Voiced x session

/-- A turn of a link keeps to what can be told of it. -/
structure Keeping (x : Transcript) (t : Turn) (turns : List Said) : Prop where
  written : ∀ queued, Written suite (x.add t.written queued turns)
  voiced : ∀ connection, t.client.connection? = some connection →
    ∀ queued, Voiced suite (x.add t.written queued turns) connection.session

end

variable {suite : CipherSuite} {c c' : Client} {connection : ClientConnection} {session : Session} {x : Transcript}
  {t : Turn} {turns : List Said} {handShake : HandShake} {exchange : KeyExchange} {key : Key}

theorem Written.queued (h : Written suite x) (queued : List Packet) : Written suite (x.add [] queued []) := by
  cases h with
  | nothing h => exact .nothing (h.queued queued)
  | begun handShake h => exact .begun handShake (h.queued queued)
  | streamed handShake exchange key h => exact .streamed handShake exchange key ⟨h.wraps, h.stream.queued queued⟩

theorem Voiced.written (h : Voiced suite x session) : Written suite x := by
  cases h with
  | unencrypted clientId handShake h => exact .begun handShake h
  | keyExchanged clientId cipher handShake exchange key hwraps h =>
    exact .streamed handShake exchange key ⟨hwraps, h.streams_nil⟩
  | encrypted session handShake exchange key h => exact .streamed handShake exchange key h

theorem Voiced.queued (h : Voiced suite x session) (queued : List Packet) :
    Voiced suite (x.add [] queued []) session := by
  cases h with
  | unencrypted clientId handShake h => exact .unencrypted clientId handShake (h.queued queued)
  | keyExchanged clientId cipher handShake exchange key hwraps h hkey hsent =>
    exact .keyExchanged clientId cipher handShake exchange key hwraps (h.queued queued) hkey hsent
  | encrypted session handShake exchange key h hsends =>
    have hsaid : (x.add [] queued []).said = x.said := by simp
    exact .encrypted session handShake exchange key ⟨h.wraps, h.stream.queued queued⟩ (hsaid.symm ▸ hsends)

/-- A frame that opens counts, and nothing else changes. -/
theorem Voiced.counted (h : Voiced suite x session) : Voiced suite x session.counted := by
  cases h with
  | unencrypted clientId handShake h => exact .unencrypted clientId handShake h
  | keyExchanged clientId cipher handShake exchange key hwraps h hkey hsent =>
    exact .keyExchanged clientId _ handShake exchange key hwraps h hkey hsent
  | encrypted session handShake exchange key h hsends =>
    exact .encrypted _ handShake exchange key h hsends.counted

theorem Voiced.streams (h : Voiced suite x session) (he : session.isEncrypted = true) :
    ∃ handShake exchange key, Streams suite x handShake exchange key ∧
      session.Sends suite key .client x.said.length := by
  cases h with
  | unencrypted | keyExchanged => cases he
  | encrypted session handShake exchange key h hsends => exact ⟨handShake, exchange, key, h, hsends⟩

/-! ## Turns -/

theorem keeping_stay (hx : Voiced suite x session) (h : c.connection? = some { connection with session }) :
    Keeping suite x (.stay c) [] := by
  refine ⟨hx.written.queued, fun connection' h' => ?_⟩
  cases h.symm.trans h'
  exact hx.queued

theorem Keeping.finish (h : Keeping suite x t turns) (connection : ClientConnection) :
    Keeping suite x (t.finish connection) turns :=
  ⟨h.written, fun _ hnone => (Option.some_ne_none _ hnone.symm).elim⟩

theorem keeping_finish (hx : Written suite x) (c : Client) (connection : ClientConnection) :
    Keeping suite x (Turn.finish (.stay c) connection) [] :=
  ⟨hx.queued, fun _ hnone => (Option.some_ne_none _ hnone.symm).elim⟩

theorem keeping_write {ps : List Packet} (h : Streams suite x handShake exchange key)
    (hsends : session.Sends suite key .client x.said.length) (hturns : turns.flatMap Said.packets = ps)
    (hps : Packet.AllSealed ps) :
    Keeping suite x (c.write suite connection session ps) turns := by
  subst hturns
  unfold write
  cases hout : session.encodeAll suite (turns.flatMap Said.packets) with
  | mk session' out =>
    obtain ⟨frames, outcome⟩ := out
    have hwrites := h.stream.write hsends hps hout
    have hwritten : ∀ queued, Written suite (x.add frames queued turns) := fun queued =>
      .streamed handShake exchange key ⟨h.wraps, (hwrites queued).1⟩
    cases outcome with
    | error e => exact ⟨hwritten, fun _ hnone => (Option.some_ne_none _ hnone.symm).elim⟩
    | ok =>
      refine ⟨hwritten, fun connection' h' queued => ?_⟩
      cases h'
      obtain ⟨hstream, hok⟩ := hwrites queued
      exact .encrypted session' handShake exchange key ⟨h.wraps, hstream⟩ (hok rfl)

/-! ### The handshake -/

/-- A kiosk that waits for a greeting refuses it, or draws a session key and
wraps it. -/
theorem acceptHello_cases (suite : CipherSuite) (clientId : String) (draws : Draws) (body : Hello) :
    (∃ session draws' e, (⟨.client clientId, .unencrypted⟩ : Session).acceptHello suite draws body =
        ((session, draws'), .error e)) ∨
      ∃ exchange draws', Wraps suite draws.next exchange ∧
        (⟨.client clientId, .unencrypted⟩ : Session).acceptHello suite draws body =
          ((⟨.client clientId, .keyExchanged (.start suite .client draws.next)⟩, draws'), .ok exchange) := by
  unfold Session.acceptHello
  dsimp only
  split
  · exact .inl ⟨_, _, _, rfl⟩
  · split
    · exact .inl ⟨_, _, _, rfl⟩
    · next serverPublic _ => exact .inr ⟨_, _, ⟨draws.rest.next, serverPublic, body.nonce, rfl⟩, rfl⟩

/-- The key exchange goes out in the clear, although there is a cipher by then. -/
theorem keeping_offer {clientId : String} (hx : x.Silent [(Packet.handShake handShake).encode])
    (hwraps : Wraps suite key exchange) (c : Client) (connection : ClientConnection) :
    Keeping suite x
      (c.write suite connection ⟨.client clientId, .keyExchanged (.start suite .client key)⟩ [.keyExchange exchange])
      [] := by
  rw [write, Session.encodeAll_clear rfl (.inr rfl)]
  have hoffered : ∀ queued, (x.add [(Packet.keyExchange exchange).encode] queued []).Silent
      [(Packet.handShake handShake).encode, (Packet.keyExchange exchange).encode] := hx.write _
  refine ⟨fun queued => .streamed handShake exchange key ⟨hwraps, (hoffered queued).streams_nil⟩, fun connection' h' queued => ?_⟩
  cases h'
  exact .keyExchanged clientId _ handShake exchange key hwraps (hoffered queued) rfl rfl

theorem keeping_shakeHands (hx : Voiced suite x session) (he : session.isEncrypted = false) (c : Client)
    (connection : ClientConnection) (p : Packet) :
    Keeping suite x (c.shakeHands suite connection session p) [] := by
  have hfails : ∀ c, Keeping suite x (Turn.finish (.stay c) connection) [] := fun c =>
    keeping_finish hx.written c connection
  cases hx with
  | unencrypted clientId handShake h =>
    cases p with
    | hello body =>
      obtain ⟨session, draws, e, haccept⟩ | ⟨exchange, draws, hwraps, haccept⟩ :=
        acceptHello_cases suite clientId c.draws body
      · rw [shakeHands, haccept]
        exact hfails _
      · rw [shakeHands, haccept]
        exact keeping_offer h hwraps _ connection
    | _ => exact hfails _
  | keyExchanged clientId cipher handShake exchange key hwraps h hkey hsent =>
    cases p with
    | encryptComplete body =>
      have hsends : (⟨.client clientId, .encrypted cipher⟩ : Session).Sends suite key .client x.said.length := by
        rw [h.said_eq]
        exact ⟨Nat.zero_le _, cipher, rfl, hkey, hsent⟩
      have hvoiced : Voiced suite x ⟨.client clientId, .encrypted cipher⟩ :=
        .encrypted _ handShake exchange key ⟨hwraps, h.streams_nil⟩ hsends
      exact keeping_stay hvoiced (welcome_keeps _ connection.generation).connection
    | _ => exact hfails _
  | encrypted session handShake exchange key _ hsends => exact absurd (he.symm.trans hsends.isEncrypted) Bool.false_ne_true

/-! ### Frames and packets -/

theorem keeping_serve (h : Streams suite x handShake exchange key)
    (hsends : session.Sends suite key .client x.said.length) (c : Client) (connection : ClientConnection) (p : Packet) :
    Keeping suite x (c.serve suite connection session p) [.replied (c.kiosk.answers p)] := by
  have hanswers := c.kiosk.allSealed_answers p
  have hwrites : ∀ (c' : Client) ps, Packet.AllSealed ps →
      Keeping suite x (c'.write suite connection session ps) [.replied ps] := fun c' ps hps =>
    keeping_write h hsends (List.append_nil ps) hps
  unfold serve
  unfold Kiosk.answers at hanswers ⊢
  by_cases haccepted : p.kind.isAcceptedBy .client = true
  · rw [if_pos haccepted] at hanswers ⊢
    rw [if_pos haccepted]
    cases hout : c.kiosk.handle p with
    | mk kiosk outcome =>
      rw [hout] at hanswers
      cases outcome with
      | ok replies => exact hwrites { c with kiosk } replies hanswers
      | error e =>
        -- what is refused is answered by writing no packets
        have hdropped : Keeping suite x (.stay ({ c with kiosk }.resume connection session)) [.replied []] :=
          hwrites { c with kiosk } [] Packet.allSealed_nil
        dsimp only
        split
        · exact hdropped.finish connection
        · exact hdropped
  · rw [if_neg haccepted, if_neg haccepted]
    exact hwrites c [] Packet.allSealed_nil

/-- A frame is a turn if the session is encrypted, and it opens and carries a
packet. -/
theorem keeping_receive (h : c.connection? = some connection) (hx : Voiced suite x connection.session) (frame : Bytes) :
    Keeping suite x (c.receive suite frame)
      ((connection.session.opens? suite frame).toList.map fun p => .replied (c.kiosk.answers p)) := by
  have hd := Session.decoded suite connection.session frame
  have hcounted := hx.counted
  have halike := connection.session.alike_counted.isEncrypted
  unfold receive Session.opens?
  rw [h]
  dsimp only
  generalize connection.session.decode suite frame = out at hd ⊢
  cases hd with
  | unopened e =>
    rw [Except.toOption, ite_self]
    exact keeping_finish hx.written _ connection
  | garbled message e =>
    rw [Except.toOption, ite_self]
    exact keeping_stay hcounted rfl
  | barred message p e =>
    rw [Except.toOption, ite_self]
    exact keeping_finish hx.written _ connection
  | taken message p =>
    dsimp only
    by_cases he : connection.session.isEncrypted = true
    · rw [if_pos he, if_pos he]
      obtain ⟨handShake, exchange, key, hstreams, hsends⟩ := hcounted.streams (halike.trans he)
      exact keeping_serve hstreams hsends c connection p
    · rw [if_neg he, if_neg he]
      exact keeping_shakeHands hcounted (halike.trans (Bool.eq_false_iff.2 he)) c connection p

theorem keeping_forward (h : c.connection? = some connection) (hx : Voiced suite x connection.session)
    (hwaiting : Packet.AllSealed (c.outbox.waiting connection.generation)) :
    Keeping suite x (c.forward suite)
      (if connection.session.isEncrypted then
        (c.outbox.waiting connection.generation).head?.toList.map .taken
      else []) := by
  unfold forward
  rw [h]
  dsimp only
  by_cases he : connection.session.isEncrypted = true
  · rw [if_pos he, if_pos he]
    cases htake : c.outbox.take? connection.generation with
    | none =>
      rw [Outbox.waiting_of_take?_eq_none htake]
      exact keeping_stay hx h
    | some taken =>
      obtain ⟨out, outbox⟩ := taken
      have hhead := (Outbox.takes_of_take? htake).head
      obtain ⟨handShake, exchange, key, hstreams, hsends⟩ := hx.streams he
      have hsealed : Packet.AllSealed [out.packet] := Packet.allSealed_singleton (hwaiting _ (hhead ▸ List.mem_cons_self))
      have hwrites : Keeping suite x ({ c with outbox }.write suite connection connection.session [out.packet])
          [.taken out.packet] := keeping_write hstreams hsends rfl hsealed
      -- one packet goes out as a list of one does
      rw [hhead]
      rw [write] at hwrites
      dsimp only
      cases hencode : connection.session.encode suite out.packet with
      | mk session outcome =>
        cases outcome with
        | error e =>
          have hout : connection.session.encodeAll suite [out.packet] = (session, [], .error e) := by
            rw [Session.encodeAll, hencode]
          rw [hout] at hwrites
          exact ⟨hwrites.written, hwrites.voiced⟩
        | ok frame =>
          have hout : connection.session.encodeAll suite [out.packet] = (session, [frame], .ok ()) := by
            rw [Session.encodeAll, hencode]
            rfl
          rw [hout] at hwrites
          exact ⟨hwrites.written, hwrites.voiced⟩
  · rw [if_neg he, if_neg he]
    exact keeping_stay hx h

end Client

end OrderDesk
