import OrderDesk.Proofs.Server.Seclusion
import OrderDesk.Proofs.Session.Stream

/-!
# What a connection to the server writes

A connection writes a greeting, and once it is admitted one sealed stream: that
the handshake is complete, then the packets of its queue and the answers to its
peer, in the order of its turns. Meanwhile the others only add to the end of its
queue.
Main results: `keeps_receive_encrypted`, `keeps_receive_idle`, `keeps_forward`.
-/

namespace OrderDesk

/-! ## What others do to a queue -/

namespace PeerTable

/-- What waits for a connection stays, and more may have come after it. -/
def Feeds (t t' : PeerTable Packet) (c : ConnectionId) : Prop :=
  ∀ encrypted waiting, t.Queues c encrypted waiting →
    ∃ added, Packet.AllSealed added ∧ t'.Queues c encrypted (waiting ++ added)

variable {t t' t'' : PeerTable Packet} {c : ConnectionId}

theorem feeds_of_queues (h : ∀ encrypted waiting, t.Queues c encrypted waiting → t'.Queues c encrypted waiting) :
    t.Feeds t' c := by
  intro encrypted waiting hq
  refine ⟨[], Packet.allSealed_nil, ?_⟩
  rw [List.append_nil]
  exact h encrypted waiting hq

theorem Feeds.refl (t : PeerTable Packet) (c : ConnectionId) : t.Feeds t c := feeds_of_queues fun _ _ hq => hq

theorem Feeds.trans (h : t.Feeds t' c) (h' : t'.Feeds t'' c) : t.Feeds t'' c := by
  intro encrypted waiting hq
  obtain ⟨added, hadded, hq'⟩ := h encrypted waiting hq
  obtain ⟨added', hadded', hq''⟩ := h' encrypted (waiting ++ added) hq'
  refine ⟨added ++ added', hadded.append hadded', ?_⟩
  rw [← List.append_assoc]
  exact hq''

theorem feeds_broadcast (t : PeerTable Packet) {p : Packet} (hp : p.kind.travelsInClear = false)
    (except? : Option ConnectionId) (c : ConnectionId) : t.Feeds (t.broadcast p except?) c := by
  by_cases hexcept : except? = some c
  · apply feeds_of_queues
    intro encrypted waiting hq
    rw [hexcept]
    exact hq.broadcast_self p
  · intro encrypted waiting hq
    have hadded := hq.broadcast p hexcept
    cases encrypted with
    | true => exact ⟨[p], Packet.allSealed_singleton hp, hadded⟩
    | false => exact ⟨[], Packet.allSealed_nil, (List.append_nil waiting).symm ▸ hadded⟩

end PeerTable

namespace Server

variable {s : Server}

theorem feeds_announce (s : Server) (id : String) (except? : Option ConnectionId) (c : ConnectionId) :
    s.peers.Feeds (s.announce id except?).peers c := by
  unfold announce
  split
  · exact .refl _ c
  · exact s.peers.feeds_broadcast rfl except? c

theorem feeds_told (s : Server) (d : Directory) (ids : List String) (except? : Option ConnectionId)
    (c : ConnectionId) : s.peers.Feeds (s.told d ids except?).peers c := by
  suffices h : ∀ s' : Server, s'.peers.Feeds (ids.foldl (fun s id => s.announce id except?) s').peers c from
    h { s with directory := d }
  induction ids with
  | nil => exact fun s' => .refl s'.peers c
  | cons id ids ih => exact fun s' => (s'.feeds_announce id except? c).trans (ih _)

theorem feeds_filed (s : Server) (orders : Registry) (e : Element orders.kind) (sender : ConnectionId) (o : Order)
    (c : ConnectionId) : s.peers.Feeds (s.filed orders e sender o).peers c :=
  s.peers.feeds_broadcast rfl (some sender) c

/-- A packet that is handled, the own one as well as another's, only adds to a
queue. -/
theorem feeds_handle (s : Server) (sender : ConnectionId) (p : Packet) (c : ConnectionId) :
    s.peers.Feeds (s.handle sender p).1.peers c := by
  have h := s.handled sender p
  generalize s.handle sender p = out at h
  cases h with
  | answered | dropped | refused | withoutOrders | exhausted => exact .refl _ c
  | checkedOut o orders e => exact feeds_filed { s with nextOrderId := s.nextOrderId + 1 } orders e sender _ c
  | resubmitted o orders e => exact feeds_filed (s.numberAbove o.orderId) orders e sender o c
  | loaded => exact feeds_told s _ _ _ c
  | mismatched added e => exact s.peers_numberAboveEntity added.entity ▸ .refl _ c
  | added registryId r e =>
    have htold := feeds_told (s.numberAboveEntity e.entity) (s.directory.set (r.upsert e)) [registryId] none c
    rwa [peers_numberAboveEntity] at htold
  | deleted => exact feeds_told s _ _ _ c

theorem allSealed_dispatch (s : Server) (sender : ConnectionId) (p : Packet) :
    Packet.AllSealed (s.dispatch sender p).2 := by
  unfold dispatch
  split
  · have h := s.handled sender p
    generalize s.handle sender p = out at h
    cases h with
    | answered request replies =>
      intro q hq
      obtain ⟨snapshot, -, rfl⟩ := List.mem_map.1 hq
      rfl
    | checkedOut o =>
      intro q hq
      have hq' : q ∈ if numbered o s.nextOrderId = o then [] else [Packet.orderUpdated ⟨numbered o s.nextOrderId⟩] := hq
      split at hq'
      · cases hq'
      · rw [List.mem_singleton.1 hq']
        rfl
    | dropped | refused | withoutOrders | exhausted | resubmitted | loaded | mismatched | added | deleted =>
      exact Packet.allSealed_nil
  · exact Packet.allSealed_nil

end Server

namespace ServerConnection

section
variable {s s' : Server} {c : ServerConnection} {t : Turn} {me : ConnectionId} {admits : List Bytes → Prop}

theorem Worked.feeds (h : Worked s c s') (hc : Seated s c) (hne : c.id ≠ me) : s.peers.Feeds s'.peers me := by
  cases h with
  | nothing => exact .refl _ me
  | handled p => exact s.feeds_handle c.id p me
  | taken p peers he htake =>
    obtain ⟨own, hown, hmailbox⟩ := hc.entry
    apply PeerTable.feeds_of_queues
    intro encrypted waiting hq
    exact hq.take?_of_ne (fun p' hp' => hmailbox ▸ PeerTable.mailbox_ne hp' hown hne) htake

/-- A turn of another connection only adds to a queue. -/
theorem Turned.feeds (h : Turned admits s c t) (hc : Seated s c) (hne : c.id ≠ me) :
    s.peers.Feeds t.server.peers me := by
  cases h with
  | stayed s' session draws written hw => exact hw.feeds hc hne
  | ended s' session draws written hw =>
    obtain ⟨own, hown, hmailbox⟩ := hc.entry
    refine (hw.feeds hc hne).trans (PeerTable.feeds_of_queues fun encrypted waiting hq => ?_)
    have hleft := hq.leave hne ((hw.get? c.id).trans hown)
    rw [hmailbox] at hleft
    exact hleft
  | admitted session draws written clientId =>
    apply PeerTable.feeds_of_queues
    intro encrypted waiting hq
    exact (hq.note hne (some clientId) false).note hne none true

end

/-! ## What a connection has written -/

section
variable (suite : CipherSuite) (secret : Key) (agreed : Key → Key → UInt64 → Prop)

def greeting (nonce : Key) : Packet := .hello ⟨(suite.publicKey secret).toBytes, nonce.toBytes⟩

/-- The greeting in the clear, and then one stream, which the confirmation
opens. -/
structure Streams (x : Transcript) (nonce key : Key) (now : UInt64) : Prop where
  agreed : agreed nonce key now
  stream : x.Streams suite key .server [(greeting suite secret nonce).encode] [.encryptComplete ⟨now⟩]

/-- All that a connection can have written. -/
inductive Written (x : Transcript) : Prop
  | nothing (h : x.Silent [])
  | greeted (nonce : Key) (h : x.Silent [(greeting suite secret nonce).encode])
  | streamed (nonce key : Key) (now : UInt64) (h : Streams suite secret agreed x nonce key now)

/-- How far the session of an open connection has come shows in what the
connection has written. -/
inductive Voiced (x : Transcript) : Session → Prop
  | unencrypted (clientId? : Option String) (h : x.Silent []) : Voiced x ⟨.server secret clientId?, .unencrypted⟩
  | helloSent (clientId? : Option String) (nonce : Key) (h : x.Silent [(greeting suite secret nonce).encode]) :
    Voiced x ⟨.server secret clientId?, .helloSent nonce⟩
  | encrypted (session : Session) (nonce key : Key) (now : UInt64) (h : Streams suite secret agreed x nonce key now)
    (hsends : session.Sends suite key .server (x.said.length + 1)) : Voiced x session

/-- What remains to be told of a connection, open or not. -/
structure Tells (x : Transcript) : Prop where
  written : Written suite secret agreed x
  inOrder : x.taken <+: x.queued

/-- What can be told of an open connection: what was queued for it is what it
took, followed by what waits. -/
structure Follows (s : Server) (c : ServerConnection) (x : Transcript) : Prop where
  voiced : Voiced suite secret agreed x c.session
  queue : ∃ waiting, s.peers.Queues c.id c.session.isEncrypted waiting ∧ Packet.AllSealed waiting ∧
    x.taken ++ waiting = x.queued

end

/-- The transcript after a turn. -/
def recorded (x : Transcript) (s : Server) (t : Turn) (turns : List Said) : Transcript :=
  x.add t.written ((t.server.peers.waiting t.connection.id).drop (s.peers.waiting t.connection.id).length) turns

/-- A turn keeps to what can be told of a connection. -/
structure Keeps (suite : CipherSuite) (secret : Key) (agreed : Key → Key → UInt64 → Prop) (x : Transcript) (s : Server)
    (t : Turn) (turns : List Said) : Prop where
  tells : ∀ queued, Tells suite secret agreed (x.add t.written queued turns)
  follows : t.connection.isOpen = true →
    Follows suite secret agreed t.server t.connection (recorded x s t turns)

section
variable {suite : CipherSuite} {secret : Key} {agreed : Key → Key → UInt64 → Prop} {s s' : Server}
  {c : ServerConnection} {x : Transcript} {nonce key : Key} {now : UInt64}

theorem Voiced.written {session : Session} (h : Voiced suite secret agreed x session) :
    Written suite secret agreed x := by
  cases h with
  | unencrypted clientId? h => exact .nothing h
  | helloSent clientId? nonce h => exact .greeted nonce h
  | encrypted session nonce key now h => exact .streamed nonce key now h

theorem Follows.tells (h : Follows suite secret agreed s c x) : Tells suite secret agreed x := by
  obtain ⟨waiting, -, -, hqueued⟩ := h.queue
  exact ⟨h.voiced.written, waiting, hqueued⟩

/-- What is queued changes nothing of what was written. -/
theorem Written.queued (h : Written suite secret agreed x) (queued : List Packet) :
    Written suite secret agreed (x.add [] queued []) := by
  cases h with
  | nothing h => exact .nothing (h.queued queued)
  | greeted nonce h => exact .greeted nonce (h.queued queued)
  | streamed nonce key now h => exact .streamed nonce key now ⟨h.agreed, h.stream.queued queued⟩

theorem Voiced.queued {session : Session} (h : Voiced suite secret agreed x session) (queued : List Packet) :
    Voiced suite secret agreed (x.add [] queued []) session := by
  cases h with
  | unencrypted clientId? h => exact .unencrypted clientId? (h.queued queued)
  | helloSent clientId? nonce h => exact .helloSent clientId? nonce (h.queued queued)
  | encrypted session nonce key now h hsends =>
    have hsaid : (x.add [] queued []).said = x.said := by simp
    exact .encrypted session nonce key now ⟨h.agreed, h.stream.queued queued⟩ (hsaid.symm ▸ hsends)

theorem Tells.queued (h : Tells suite secret agreed x) (queued : List Packet) :
    Tells suite secret agreed (x.add [] queued []) := by
  refine ⟨h.written.queued queued, ?_⟩
  rw [Transcript.taken_add, List.filterMap_nil, List.append_nil]
  exact h.inOrder.trans (List.prefix_append _ _)

theorem Follows.fed (h : Follows suite secret agreed s c x) (hfeeds : s.peers.Feeds s'.peers c.id) :
    Follows suite secret agreed s' c
      (x.add [] ((s'.peers.waiting c.id).drop (s.peers.waiting c.id).length) []) := by
  obtain ⟨waiting, hq, hwaiting, hqueued⟩ := h.queue
  obtain ⟨added, hadded, hq'⟩ := hfeeds _ _ hq
  have hshifts : Transcript.Shifts waiting (waiting ++ added) [] := .fed hwaiting hadded rfl
  rw [hq.waiting_eq, hq'.waiting_eq]
  exact ⟨h.voiced.queued _, waiting ++ added, hq', hshifts.allSealed, hshifts.queue hqueued []⟩

/-! ## Turns -/

/-- A turn that does nothing but maybe end the connection. -/
def Quiet (c : ServerConnection) (s : Server) (t : Turn) : Prop :=
  t.written = [] ∧ t.connection.id = c.id ∧
    (t.connection.isOpen = true → t.server = s ∧ t.connection = c)

theorem quiet_idle (s : Server) (c : ServerConnection) (draws : Draws) : c.Quiet s ⟨s, c, draws, []⟩ :=
  ⟨rfl, rfl, fun _ => ⟨rfl, rfl⟩⟩

theorem quiet_finish (s s' : Server) (c : ServerConnection) (session : Session) (draws : Draws) :
    c.Quiet s (Turn.stay s' c session draws).finish :=
  ⟨rfl, rfl, fun hopen => absurd hopen Bool.false_ne_true⟩

theorem quiet_lose (s : Server) (c : ServerConnection) (draws : Draws) : c.Quiet s (c.lose s draws) := by
  unfold lose
  dsimp only
  split
  · exact quiet_finish s s c c.session draws
  · exact quiet_idle s c draws

theorem quiet_expire (s : Server) (c : ServerConnection) (draws : Draws) : c.Quiet s (c.expire s draws) := by
  unfold expire
  split
  · exact quiet_finish s s c c.session.fail draws
  · exact quiet_idle s c draws

theorem quiet_wait (s : Server) (c : ServerConnection) (draws : Draws) (p : Prop) [Decidable p] :
    c.Quiet s (if p then c.expire s draws else ⟨s, c, draws, []⟩) := by
  split
  · exact quiet_expire s c draws
  · exact quiet_idle s c draws

theorem quiet_stop (s : Server) (c : ServerConnection) (draws : Draws) : c.Quiet s (c.stop s draws) := by
  unfold stop
  dsimp only
  split
  · exact quiet_finish s s c c.session draws
  · exact quiet_idle s c draws

theorem Quiet.keeps {t : Turn} (ht : c.Quiet s t) (h : Follows suite secret agreed s c x) :
    Keeps suite secret agreed x s t [] := by
  obtain ⟨hwritten, hid, hstays⟩ := ht
  constructor
  · rw [hwritten]
    exact h.tells.queued
  · intro hopen
    obtain ⟨hserver, hconnection⟩ := hstays hopen
    rw [recorded, hwritten, hserver, hconnection]
    exact h.fed (.refl s.peers c.id)

theorem keeps_write {session : Session} {draws : Draws} {waiting waiting' ps : List Packet} {turns : List Said}
    (h : Streams suite secret agreed x nonce key now)
    (hsends : session.Sends suite key .server (x.said.length + 1))
    (hqueued : x.taken ++ waiting = x.queued) (hq : s.peers.Queues c.id true waiting)
    (hq' : s'.peers.Queues c.id true waiting') (hshifts : Transcript.Shifts waiting waiting' turns)
    (hturns : turns.flatMap Said.packets = ps) (hps : Packet.AllSealed ps) :
    Keeps suite secret agreed x s (c.write suite s' session draws ps) turns := by
  subst hturns
  unfold write
  cases hout : session.encodeAll suite (turns.flatMap Said.packets) with
  | mk session' out =>
    obtain ⟨frames, outcome⟩ := out
    have hwrites := h.stream.write hsends hps hout
    have htold : ∀ queued, Tells suite secret agreed (x.add frames queued turns) := fun queued =>
      ⟨.streamed nonce key now ⟨h.agreed, (hwrites queued).1⟩, hshifts.inOrder hqueued frames queued⟩
    cases outcome with
    | error e => exact ⟨htold, fun hopen => absurd hopen Bool.false_ne_true⟩
    | ok =>
      have hrecorded : recorded x s ⟨s', { c with session := session' }, draws, frames⟩ turns =
          x.add frames (waiting'.drop waiting.length) turns := by
        rw [← hq.waiting_eq, ← hq'.waiting_eq]
        rfl
      obtain ⟨hstream, hok⟩ := hwrites (waiting'.drop waiting.length)
      have hsends' := hok rfl
      refine ⟨htold, fun _ => ?_⟩
      rw [hrecorded]
      exact ⟨.encrypted session' nonce key now ⟨h.agreed, hstream⟩ hsends', waiting', hsends'.isEncrypted.symm ▸ hq',
        hshifts.allSealed, hshifts.queue hqueued frames⟩

theorem Keeps.finish {t : Turn} {turns : List Said} (h : Keeps suite secret agreed x s t turns) :
    Keeps suite secret agreed x s t.finish turns :=
  ⟨h.tells, fun hopen => absurd hopen Bool.false_ne_true⟩

theorem Voiced.streams {session : Session} (h : Voiced suite secret agreed x session) (he : session.isEncrypted = true) :
    ∃ nonce key now, Streams suite secret agreed x nonce key now ∧
      session.Sends suite key .server (x.said.length + 1) := by
  cases h with
  | unencrypted | helloSent => cases he
  | encrypted session nonce key now h hsends => exact ⟨nonce, key, now, h, hsends⟩

theorem Follows.streams (h : Follows suite secret agreed s c x) (he : c.session.isEncrypted = true) :
    ∃ nonce key now waiting, Streams suite secret agreed x nonce key now ∧
      c.session.Sends suite key .server (x.said.length + 1) ∧ s.peers.Queues c.id true waiting ∧
      Packet.AllSealed waiting ∧ x.taken ++ waiting = x.queued := by
  obtain ⟨nonce, key, now, hstreams, hsends⟩ := h.voiced.streams he
  obtain ⟨waiting, hq, hwaiting, hqueued⟩ := h.queue
  exact ⟨nonce, key, now, waiting, hstreams, hsends, he ▸ hq, hwaiting, hqueued⟩

theorem keeps_serve {session : Session} {waiting : List Packet} (h : Streams suite secret agreed x nonce key now)
    (hsends : session.Sends suite key .server (x.said.length + 1))
    (hqueued : x.taken ++ waiting = x.queued) (hq : s.peers.Queues c.id true waiting)
    (hwaiting : Packet.AllSealed waiting) (draws : Draws) (p : Packet) :
    Keeps suite secret agreed x s (c.serve suite s session draws p) [.replied (s.dispatch c.id p).2] := by
  have hreplies := s.allSealed_dispatch c.id p
  unfold serve
  unfold Server.dispatch at hreplies ⊢
  by_cases haccepted : p.kind.isAcceptedBy .server = true
  · obtain ⟨added, hadded, hq'⟩ := s.feeds_handle c.id p c.id true waiting hq
    have hanswers : ∀ ps, Packet.AllSealed ps → Keeps suite secret agreed x s
        (c.write suite (s.handle c.id p).1 session draws ps) [.replied ps] := fun ps hps =>
      keeps_write h hsends hqueued hq hq' (.fed hwaiting hadded rfl) (List.append_nil ps) hps
    rw [if_pos haccepted] at hreplies ⊢
    rw [if_pos haccepted]
    cases hout : s.handle c.id p with
    | mk s' outcome =>
      rw [hout] at hreplies hanswers
      cases outcome with
      | ok replies => exact hanswers replies hreplies
      | error e =>
        -- what is refused is answered by writing no packets
        have hdropped : Keeps suite secret agreed x s (Turn.stay s' c session draws) [.replied []] :=
          hanswers [] Packet.allSealed_nil
        dsimp only
        split
        · exact hdropped.finish
        · exact hdropped
  · rw [if_neg haccepted, if_neg haccepted]
    have hnothing : Keeps suite secret agreed x s (c.write suite s session draws []) [.replied []] :=
      keeps_write h hsends hqueued hq hq (.unmoved hwaiting rfl) rfl Packet.allSealed_nil
    exact hnothing

/-- A frame on an encrypted connection is a turn if it opens and carries a
packet. -/
theorem keeps_receive_encrypted (h : Follows suite secret agreed s c x) (hopen : c.isOpen = true)
    (he : c.session.isEncrypted = true) (draws : Draws) (now : UInt64) (frame : Bytes) :
    Keeps suite secret agreed x s (c.receive suite s draws now frame)
      ((c.session.opens? suite frame).toList.map fun p => .replied (s.dispatch c.id p).2) := by
  obtain ⟨nonce, key, done, waiting, hstreams, hsends, hq, hwaiting, hqueued⟩ := h.streams he
  have hd := Session.decoded suite c.session frame
  unfold receive Session.opens?
  rw [if_pos hopen, if_pos he]
  generalize c.session.decode suite frame = out at hd ⊢
  cases hd with
  | unopened e => exact (quiet_finish s s c c.session.fail draws).keeps h
  | garbled message e =>
    have hcounted : Keeps suite secret agreed x s (c.write suite s c.session.counted draws []) [] :=
      keeps_write hstreams hsends.counted hqueued hq hq (.unmoved hwaiting rfl) rfl Packet.allSealed_nil
    exact hcounted
  | barred message p e => exact (quiet_finish s s c c.session.counted.fail draws).keeps h
  | taken message p =>
    dsimp only
    rw [if_pos he]
    exact keeps_serve hstreams hsends.counted hqueued hq hwaiting draws p

/-! ### The handshake -/

/-- A turn that takes a handshake further takes nothing from the queue. -/
theorem keeps_handshake {t : Turn} (h : Follows suite secret agreed s c x) (hid : t.connection.id = c.id)
    (hvoiced : ∀ queued, Voiced suite secret agreed (x.add t.written queued []) t.connection.session)
    (hqueues : ∀ waiting, s.peers.Queues c.id c.session.isEncrypted waiting →
      t.server.peers.Queues c.id t.connection.session.isEncrypted waiting) :
    Keeps suite secret agreed x s t [] := by
  obtain ⟨waiting, hq, hwaiting, hqueued⟩ := h.queue
  have hq' := hqueues waiting hq
  have hshifts : Transcript.Shifts waiting waiting [] := .unmoved hwaiting rfl
  refine ⟨fun queued => ⟨(hvoiced queued).written, hshifts.inOrder hqueued t.written queued⟩, fun _ => ?_⟩
  rw [recorded, hid, hq.waiting_eq, hq'.waiting_eq]
  exact ⟨hvoiced _, waiting, hid.symm ▸ hq', hwaiting, hshifts.queue hqueued t.written⟩

theorem keeps_greeting (h : Follows suite secret agreed s c x) (hx : x.Silent [])
    (he : c.session.isEncrypted = false) (clientId : String) (nonce : Key) (draws : Draws) :
    Keeps suite secret agreed x s
      (c.write suite s ⟨.server secret (some clientId), .helloSent nonce⟩ draws [greeting suite secret nonce]) [] := by
  rw [write, Session.encodeAll_clear rfl (.inl rfl)]
  apply keeps_handshake h rfl
  · exact fun queued => .helloSent (some clientId) nonce (hx.write _ queued)
  · intro waiting hq
    rw [he] at hq
    exact hq

/-- The confirmation is the first sealed frame, and the peer is encrypted from
then on. -/
theorem keeps_admission (h : Follows suite secret agreed s c x) (hx : x.Silent [(greeting suite secret nonce).encode])
    (he : c.session.isEncrypted = false) (hopen : c.isOpen = true) (hagreed : agreed nonce key now)
    (party : Party) (draws : Draws) :
    Keeps suite secret agreed x s
      (c.write suite s ⟨party, .encrypted (.start suite .server key)⟩ draws [.encryptComplete ⟨now⟩]).welcome [] := by
  obtain ⟨session, hencode, hsends⟩ :=
    Session.encodeAll_first suite key .server party (p := .encryptComplete ⟨now⟩) rfl
  have hserving : ServerConnection.isServing { c with session } = true := by
    rw [isServing, hopen, hsends.isEncrypted]
    rfl
  rw [write, hencode]
  dsimp only
  rw [Turn.welcome, if_pos hserving]
  apply keeps_handshake h rfl
  · intro queued
    refine .encrypted session nonce key now ⟨hagreed, hx.stream queued⟩ ?_
    rw [(hx.write _ queued).said_eq]
    exact hsends
  · intro waiting hq
    rw [he] at hq
    have hnoted := (hq.note_self (some (session.clientId?.getD "")) false).note_self none true
    exact hsends.isEncrypted.symm ▸ hnoted

/-- In the handshake a frame is its message, and none is counted. -/
theorem Voiced.openFrame {session : Session} (h : Voiced suite secret agreed x session)
    (he : session.isEncrypted = false) (frame : Bytes) :
    session.openFrame suite frame = (session, .ok frame) ∧ session.counted = session := by
  cases h with
  | unencrypted | helloSent => exact ⟨rfl, rfl⟩
  | encrypted session nonce key now h hsends => exact absurd (he.symm.trans hsends.isEncrypted) Bool.false_ne_true

theorem keeps_shakeHands {p : Packet} (h : Follows suite secret agreed s c x) (hopen : c.isOpen = true)
    (he : c.session.isEncrypted = false)
    (hagreed : ∀ nonce key body, p = .keyExchange body → Session.sessionKeyOf suite secret nonce body = .ok key →
      agreed nonce key now) (draws : Draws) :
    Keeps suite secret agreed x s (c.shakeHands suite s c.session draws now p) [] := by
  have hfails : ∀ session draws, Keeps suite secret agreed x s (Turn.stay s c session draws).finish [] :=
    fun session draws => (quiet_finish s s c session draws).keeps h
  have hvoiced := h.voiced
  generalize hsession : c.session = session at hvoiced he ⊢
  cases hvoiced with
  | unencrypted clientId? hx =>
    cases p with
    | handShake body =>
      exact keeps_greeting h hx (hsession.symm ▸ he) body.clientId draws.next draws.rest
    | _ => exact hfails _ _
  | helloSent clientId? nonce hx =>
    cases p with
    | keyExchange body =>
      cases hkey : Session.sessionKeyOf suite secret nonce body with
      | error e =>
        have haccept : (⟨.server secret clientId?, .helloSent nonce⟩ : Session).acceptKeyExchange suite now body =
            (⟨.server secret clientId?, .failed⟩, .error e) := by simp only [Session.acceptKeyExchange, hkey, Session.fail]
        rw [shakeHands, haccept]
        exact hfails _ _
      | ok key =>
        have haccept : (⟨.server secret clientId?, .helloSent nonce⟩ : Session).acceptKeyExchange suite now body =
            (⟨.server secret clientId?, .encrypted (.start suite .server key)⟩, .ok ⟨now⟩) := by
          simp only [Session.acceptKeyExchange, hkey]
        rw [shakeHands, haccept]
        exact keeps_admission h hx (hsession.symm ▸ he) hopen (hagreed nonce key body rfl hkey) _ draws
    | _ => exact hfails _ _
  | encrypted session nonce key done _ hsends => exact absurd (he.symm.trans hsends.isEncrypted) Bool.false_ne_true

/-- A frame on a connection in its handshake. -/
theorem keeps_receive_idle {frame : Bytes} (h : Follows suite secret agreed s c x) (hopen : c.isOpen = true)
    (he : c.session.isEncrypted = false)
    (hagreed : ∀ nonce key body, Packet.decode frame = .ok (.keyExchange body) →
      Session.sessionKeyOf suite secret nonce body = .ok key → agreed nonce key now) (draws : Draws) :
    Keeps suite secret agreed x s (c.receive suite s draws now frame) [] := by
  obtain ⟨hclear, hcounted⟩ := h.voiced.openFrame he frame
  have hd := Session.decoded suite c.session frame
  unfold receive
  rw [if_pos hopen]
  generalize c.session.decode suite frame = out at hd ⊢
  cases hd with
  | unopened e => exact (quiet_finish s s c c.session.fail draws).keeps h
  | garbled message e =>
    rw [hcounted]
    exact (quiet_idle s c draws).keeps h
  | barred message p e => exact (quiet_finish s s c c.session.counted.fail draws).keeps h
  | taken message p hmessage hp =>
    obtain rfl : frame = message := Except.ok.inj (congrArg Prod.snd (hclear.symm.trans hmessage))
    dsimp only
    rw [if_neg (Bool.eq_false_iff.1 he), hcounted]
    refine keeps_shakeHands h hopen he (fun nonce key body hbody hkey => ?_) draws
    exact hagreed nonce key body (hbody ▸ hp) hkey

theorem keeps_forward (h : Follows suite secret agreed s c x) (hc : Seated s c) (hopen : c.isOpen = true)
    (draws : Draws) :
    Keeps suite secret agreed x s (c.forward suite s draws) ((s.peers.waiting c.id).head?.toList.map .taken) := by
  by_cases he : c.session.isEncrypted = true
  · have hserving : c.isServing = true := Bool.and_eq_true_iff.2 ⟨hopen, he⟩
    obtain ⟨nonce, key, now, waiting, hstreams, hsends, hq, hwaiting, hqueued⟩ := h.streams he
    obtain ⟨own, hown, hmailbox⟩ := hc.entry
    rw [forward, if_pos hserving, hq.waiting_eq, ← hmailbox]
    cases waiting with
    | nil =>
      rw [hq.take?_nil hown]
      exact (quiet_idle s c draws).keeps h
    | cons p waiting =>
      obtain ⟨peers, htake, hq'⟩ := hq.take?_cons hown
      rw [htake]
      have hq'' : { s with peers }.peers.Queues c.id true waiting := hq'
      exact keeps_write hstreams hsends hqueued hq hq'' (.taking hwaiting) rfl
        (Packet.allSealed_singleton (hwaiting p List.mem_cons_self))
  · have hidle := Bool.eq_false_iff.2 he
    have hserving : ¬c.isServing = true := fun hserves => he (Bool.and_eq_true_iff.1 hserves).2
    rw [forward, if_neg hserving, (hc.idle hidle).waiting_eq]
    exact (quiet_idle s c draws).keeps h

end

end ServerConnection

end OrderDesk
