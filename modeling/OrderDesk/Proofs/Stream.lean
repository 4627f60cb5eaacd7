import OrderDesk.Proofs.Client.Transcript
import OrderDesk.Proofs.Server.Transcript

/-!
# Both ends write one sealed stream

A connection has two sources of packets, its queue and the answers to its peer,
and one counter. Whatever goes on at its end, the frames that it writes are
those of the handshake in the clear and then one stream, in which the packets
of its turns follow each other; a peer that has the session key reads them all.
-/

namespace OrderDesk

open FrameCipher (capacity)

namespace ServerNode

variable {suite : CipherSuite} {n : ServerNode} {id : ConnectionId} {x : Transcript} {secret : Key}
  {agreed : Key → Key → UInt64 → Prop}

/-- Before the stream a connection has written its greeting, or not yet. -/
theorem Transcribes.streams_or (h : n.Transcribes suite secret agreed id x) :
    (x.turns = [] ∧ (∃ nonce, x.frames <+: [(ServerConnection.greeting suite secret nonce).encode]) ∧
      ∀ g ∈ n.guests, g.connection.id = id →
        (g.connection.session.phase = .unencrypted ∧ x.frames = []) ∨
          ∃ nonce, g.connection.session.phase = .helloSent nonce ∧
            x.frames = [(ServerConnection.greeting suite secret nonce).encode]) ∨
    ∃ nonce key now, ServerConnection.Streams suite secret agreed x nonce key now := by
  by_cases hidle : ∀ g ∈ n.guests, g.connection.id = id → g.connection.session.isEncrypted = false
  · have hphase : ∀ g ∈ n.guests, g.connection.id = id →
        (g.connection.session.phase = .unencrypted ∧ x.frames = []) ∨
          ∃ nonce, g.connection.session.phase = .helloSent nonce ∧
            x.frames = [(ServerConnection.greeting suite secret nonce).encode] := by
      intro g hg hid
      have hvoiced := (h.follows g hg hid).voiced
      have he := hidle g hg hid
      generalize g.connection.session = session at hvoiced he ⊢
      cases hvoiced with
      | unencrypted clientId? hx => exact .inl ⟨rfl, hx.frames⟩
      | helloSent clientId? nonce hx => exact .inr ⟨nonce, rfl, hx.frames⟩
      | encrypted session nonce key now _ hsends =>
        exact absurd (he.symm.trans hsends.isEncrypted) Bool.false_ne_true
    cases h.tells.written with
    | nothing hx => exact .inl ⟨hx.turns, ⟨secret, hx.frames ▸ List.nil_prefix⟩, hphase⟩
    | greeted nonce hx => exact .inl ⟨hx.turns, ⟨nonce, hx.frames ▸ List.prefix_refl _⟩, hphase⟩
    | streamed nonce key now hx => exact .inr ⟨nonce, key, now, hx⟩
  · push Not at hidle
    obtain ⟨g, hg, hid, he⟩ := hidle
    obtain ⟨nonce, key, now, hx, -⟩ := (h.follows g hg hid).voiced.streams (Bool.not_eq_false _ ▸ he)
    exact .inr ⟨nonce, key, now, hx⟩

end ServerNode

namespace Client

variable {suite : CipherSuite} {c : Client} {generation : Nat} {x : Transcript}

/-- Before the key exchange a link has written the name of the kiosk. -/
theorem Transcribes.streams_or (h : c.Transcribes suite generation x) :
    (x.turns = [] ∧ ∃ handShake, x.frames <+: [(Packet.handShake handShake).encode] ∧
      ∀ connection, c.connection? = some connection → connection.generation = generation →
        connection.session.phase = .unencrypted ∧ x.frames = [(Packet.handShake handShake).encode]) ∨
    ∃ handShake exchange key, Streams suite x handShake exchange key := by
  by_cases hlink : ∃ connection, c.connection? = some connection ∧ connection.generation = generation
  · obtain ⟨connection, hc, hg⟩ := hlink
    have hvoiced := h.voiced connection hc hg
    generalize hsession : connection.session = session at hvoiced
    cases hvoiced with
    | unencrypted clientId handShake hx =>
      refine .inl ⟨hx.turns, handShake, hx.frames ▸ List.prefix_refl _, fun connection' hc' _ => ?_⟩
      cases hc.symm.trans hc'
      exact ⟨congrArg (·.phase) hsession, hx.frames⟩
    | keyExchanged clientId cipher handShake exchange key hwraps hx =>
      exact .inr ⟨handShake, exchange, key, hwraps, hx.streams_nil⟩
    | encrypted session handShake exchange key hx => exact .inr ⟨handShake, exchange, key, hx⟩
  · cases h.written with
    | nothing hx =>
      exact .inl ⟨hx.turns, ⟨""⟩, hx.frames ▸ List.nil_prefix, fun connection hc hg =>
        absurd ⟨connection, hc, hg⟩ hlink⟩
    | begun handShake hx =>
      exact .inl ⟨hx.turns, handShake, hx.frames ▸ List.prefix_refl _, fun connection hc hg =>
        absurd ⟨connection, hc, hg⟩ hlink⟩
    | streamed handShake exchange key hx => exact .inr ⟨handShake, exchange, key, hx⟩

end Client

/-- A server and a kiosk, each with any moves behind it, in which no packet of the
handshake is broadcast or posted.

A connection of the server whose handshake goes on has written its greeting once
the session says so, and nothing else. One that is encrypted, or was, agreed on a
key with its peer, and has written the greeting and then one stream: the
confirmation and the packets of its turns. Those that it took from its queue are
the first that were queued, in order, and while it is open the others wait. Who
has the key reads back every packet, as far as there are numbers.

The same holds of every link of the kiosk, with its name and the key exchange
before the stream. -/
theorem sealed_streams {suite : CipherSuite} (hs : suite.Seals) (serverConfig : ServerConfig) (secret? : Option Key)
    (shop : Directory) (serverDraws : Draws) {ms : List ServerNode.Move}
    (hids : (ms.filterMap ServerNode.Move.accepted?).Nodup)
    (hbroadcasts : ∀ p except?, .broadcast p except? ∈ ms → p.kind.travelsInClear = false)
    (clientConfig : ClientConfig) (registries : Directory) (clientDraws : Draws) {ms' : List Client.Move}
    (hposts : ∀ p awaited, .post p awaited ∈ ms' → p.kind.travelsInClear = false) :
    let started := ServerNode.start serverConfig secret? shop serverDraws
    let n := started.run suite ms
    let opened := Client.start clientConfig registries clientDraws
    let c := opened.run suite ms'
    (∀ id,
      let x := started.transcript suite id ms
      let greeting := ServerConnection.greeting suite started.secret
      ((x.turns = [] ∧ (∃ nonce, x.frames <+: [(greeting nonce).encode]) ∧
          ∀ g ∈ n.guests, g.connection.id = id →
            (g.connection.session.phase = .unencrypted ∧ x.frames = []) ∨
              ∃ nonce, g.connection.session.phase = .helloSent nonce ∧ x.frames = [(greeting nonce).encode]) ∨
        ∃ nonce key now, ServerNode.Agreed suite started.secret id ms nonce key now ∧
          x.frames = (greeting nonce).encode :: Session.stream suite key .server (.encryptComplete ⟨now⟩ :: x.said) ∧
          ∀ name draws time, draws.next = key →
            (Session.client name).readAll suite draws time x.frames =
              (greeting nonce :: (.encryptComplete ⟨now⟩ :: x.said).take capacity).map .ok) ∧
      x.taken <+: x.queued ∧
      ∀ g ∈ n.guests, g.connection.id = id → x.taken ++ n.server.peers.waiting id = x.queued) ∧
    ∀ generation,
      let x := opened.transcript suite generation ms'
      ((x.turns = [] ∧ ∃ handShake, x.frames <+: [(Packet.handShake handShake).encode] ∧
          ∀ connection, c.connection? = some connection → connection.generation = generation →
            connection.session.phase = .unencrypted ∧ x.frames = [(Packet.handShake handShake).encode]) ∨
        ∃ handShake exchange key, Client.Wraps suite key exchange ∧
          x.frames = (Packet.handShake handShake).encode :: (Packet.keyExchange exchange).encode ::
            Session.stream suite key .client x.said ∧
          ∀ secret draws time, Session.sessionKeyOf suite secret draws.next exchange = .ok key →
            (Session.server secret).readAll suite draws time x.frames =
              (.handShake handShake :: .keyExchange exchange :: x.said.take capacity).map .ok) ∧
      x.taken ++ c.outbox.waiting generation = x.queued := by
  intro started n opened c
  constructor
  · intro id x greeting
    have hagreed : ∀ now frame, .receive id now frame ∈ ms → ∀ nonce key body,
        Packet.decode frame = .ok (.keyExchange body) →
          Session.sessionKeyOf suite started.secret nonce body = .ok key →
            ServerNode.Agreed suite started.secret id ms nonce key now := fun _ frame hm _ _ body hbody hkey =>
      ⟨frame, body, hm, hbody, hkey⟩
    obtain ⟨htold, -⟩ :=
      ServerNode.transcribes_run suite serverConfig secret? shop serverDraws hids hbroadcasts id hagreed
    refine ⟨htold.streams_or.imp_right ?_, htold.tells.inOrder, fun g hg hid => ?_⟩
    · rintro ⟨nonce, key, now, hagreed, hframes⟩
      have hstream : x.frames =
          (greeting nonce).encode :: Session.stream suite key .server (.encryptComplete ⟨now⟩ :: x.said) := hframes
      refine ⟨nonce, key, now, hagreed, hstream, fun name draws time hkey => ?_⟩
      subst hkey
      rw [hstream]
      exact Session.client_reads hs name (suite.publicKey started.secret) nonce ⟨now⟩ x.said
    · obtain ⟨waiting, hq, -, hqueued⟩ := (htold.follows g hg hid).queue
      rw [← hid, hq.waiting_eq]
      exact hqueued
  · intro generation x
    have htold := Client.transcribes_run suite clientConfig registries clientDraws hposts generation
    refine ⟨htold.streams_or.imp_right ?_, htold.queue⟩
    rintro ⟨handShake, exchange, key, hwraps, hframes⟩
    have hstream : x.frames = (Packet.handShake handShake).encode :: (Packet.keyExchange exchange).encode ::
        Session.stream suite key .client x.said := hframes
    refine ⟨handShake, exchange, key, hwraps, hstream, fun secret draws time hkey => ?_⟩
    rw [hstream]
    exact Session.server_reads hs handShake hkey x.said

/-- A suite that hides nothing and is quick to compute with. -/
def CipherSuite.plain : CipherSuite where
  publicKey secret := secret
  agree _ _ := .replicate 32 0
  derive _ _ _ := .replicate 32 0
  sealed _ _ _ message := message ++ .replicate 16 0
  unsealed? _ _ _ message := some (message.take (message.length - 16))

theorem CipherSuite.plain_seals : plain.Seals :=
  ⟨fun _ _ _ message => by simp [plain], fun _ _ _ message => by simp [plain]⟩

namespace Meeting

def secret : Key := .replicate 32 9

def key : Key := .replicate 32 7

def draws : Draws := .start fun _ => key

def exchange : KeyExchange :=
  ⟨KeyTransport.wrapped .plain key secret key, KeyTransport.signedNonce .plain key key.toBytes⟩

def asked : Packet := .requestData ⟨RegistryId.orders⟩

/-- A kiosk shakes hands. It asks for the orders when a packet for it waits
already. -/
def visit : List ServerNode.Move :=
  [.accept ⟨1⟩, .receive ⟨1⟩ 0 (Packet.handShake ⟨"kiosk"⟩).encode, .receive ⟨1⟩ 0 (Packet.keyExchange exchange).encode,
    .broadcast Client.everything none, .receive ⟨1⟩ 0 (FrameCipher.frame .plain key .client 0 asked.encode),
    .forward ⟨1⟩]

def call : List Client.Move :=
  [.post asked true, .connect, .receive (ServerConnection.greeting .plain secret key).encode,
    .receive (FrameCipher.frame .plain key .server 0 (Packet.encryptComplete ⟨0⟩).encode), .forward]

end Meeting

open Meeting in
/-- The answer goes out before the packet that waits. -/
theorem sealed_streams_met :
    let x := (ServerNode.start .standard (some secret) .standard draws).transcript .plain ⟨1⟩ visit
    let y := (Client.start .standard .standard draws).transcript .plain 0 call
    CipherSuite.plain.Seals ∧ (visit.filterMap ServerNode.Move.accepted?).Nodup ∧
      (∀ p except?, .broadcast p except? ∈ visit → p.kind.travelsInClear = false) ∧
      (∀ p awaited, .post p awaited ∈ call → p.kind.travelsInClear = false) ∧
      x.turns = [.replied [.responseData ⟨RegistryId.orders, []⟩], .taken Client.everything] ∧
      y.turns = [.taken asked] ∧
      (∃ nonce key now, ∀ name draws time, draws.next = key →
        (Session.client name).readAll .plain draws time x.frames =
          [ServerConnection.greeting .plain secret nonce, .encryptComplete ⟨now⟩,
            .responseData ⟨RegistryId.orders, []⟩, Client.everything].map .ok) ∧
      ∃ handShake exchange key, ∀ secret draws time, Session.sessionKeyOf .plain secret draws.next exchange = .ok key →
        (Session.server secret).readAll .plain draws time y.frames =
          [.handShake handShake, .keyExchange exchange, asked].map .ok := by
  intro x y
  have hids : (visit.filterMap ServerNode.Move.accepted?).Nodup := by decide
  have hbroadcasts : ∀ p except?, .broadcast p except? ∈ visit → p.kind.travelsInClear = false := by
    intro p except? h
    simp only [visit, List.mem_cons, List.not_mem_nil, ServerNode.Move.broadcast.injEq, reduceCtorEq, or_false,
      false_or] at h
    rw [h.1]
    rfl
  have hposts : ∀ p awaited, .post p awaited ∈ call → p.kind.travelsInClear = false := by
    intro p awaited h
    simp only [call, List.mem_cons, List.not_mem_nil, Client.Move.post.injEq, reduceCtorEq, or_false] at h
    rw [h.1]
    rfl
  have hx : x.turns = [.replied [.responseData ⟨RegistryId.orders, []⟩], .taken Client.everything] := by
    decide +kernel
  have hy : y.turns = [.taken asked] := by decide +kernel
  obtain ⟨hserver, hclient⟩ := sealed_streams CipherSuite.plain_seals .standard (some secret) .standard draws hids
    hbroadcasts .standard .standard draws hposts
  refine ⟨CipherSuite.plain_seals, hids, hbroadcasts, hposts, hx, hy, ?_, ?_⟩
  · obtain ⟨⟨hnone, -⟩ | ⟨nonce, key, now, -, -, hreads⟩, -⟩ := hserver ⟨1⟩
    · exact absurd (hx.symm.trans hnone) (List.cons_ne_nil _ _)
    · have hsaid : x.said = [.responseData ⟨RegistryId.orders, []⟩, Client.everything] := by
        rw [Transcript.said, hx]
        rfl
      have hfew : (.encryptComplete ⟨now⟩ :: x.said).length ≤ capacity := by
        rw [hsaid]
        exact (by decide : 3 ≤ capacity)
      refine ⟨nonce, key, now, fun name draws time hkey => (hreads name draws time hkey).trans ?_⟩
      rw [List.take_of_length_le hfew, hsaid]
      rfl
  · obtain ⟨⟨hnone, -⟩ | ⟨handShake, exchange, key, -, -, hreads⟩, -⟩ := hclient 0
    · exact absurd (hy.symm.trans hnone) (List.cons_ne_nil _ _)
    · have hsaid : y.said = [asked] := by
        rw [Transcript.said, hy]
        rfl
      refine ⟨handShake, exchange, key, fun secret draws time hkey => (hreads secret draws time hkey).trans ?_⟩
      rw [hsaid, List.take_of_length_le (by decide)]

end OrderDesk
