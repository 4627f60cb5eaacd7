import OrderDesk.Proofs.Mirror.Topics
import OrderDesk.Proofs.Server.Mailboxes
import OrderDesk.Proofs.Session.Frames
import OrderDesk.Server.Connection

/-!
# The turns of a connection

`Turned` says once what a turn of a connection can do. From it: what a turn does
to the entry and the queue of another connection, and that before the handshake
is complete it does nothing else to the server.
-/

namespace OrderDesk

/-! ## The table of peers -/

namespace PeerTable

variable {t : PeerTable Packet} {c c' : ConnectionId} {p : Peer}

theorem get?_leave (t : PeerTable Packet) (number : Nat) (hne : c' ≠ c) :
    ((t.remove c').close number).get? c = t.get? c :=
  find?_others hne t.peers

theorem mailbox?_close {number : Nat} (hne : p.mailbox ≠ number) : (t.close number).mailbox? p = t.mailbox? p := by
  have hget : (t.mailboxes.mapIdx fun i box => if i = number then box.close else box)[p.mailbox]? =
      (t.mailboxes[p.mailbox]?).map fun box => if p.mailbox = number then box.close else box := List.getElem?_mapIdx
  refine hget.trans ?_
  simp only [if_neg hne, Option.map_id']
  rfl

theorem waiting_leave (hne : c' ≠ c) (hp : t.get? c' = some p) :
    ((t.remove c').close p.mailbox).waiting c = t.waiting c := by
  rw [waiting, waiting, get?_leave t p.mailbox hne]
  cases hc : t.get? c with
  | none => rfl
  | some q =>
    have hbox : ((t.remove c').close p.mailbox).mailbox? q = t.mailbox? q :=
      mailbox?_close (t := t.remove c') (mailbox_ne hc hp hne)
    rw [Option.bind_some, Option.bind_some, hbox]

theorem peers_take? {number : Nat} {message : Packet} {t' : PeerTable Packet}
    (h : t.take? number = some (message, t')) : t'.peers = t.peers := by
  unfold take? at h
  obtain ⟨box, -, h⟩ := Option.bind_eq_some_iff.1 h
  obtain ⟨taken, -, h⟩ := Option.bind_eq_some_iff.1 h
  cases h
  rfl

end PeerTable

/-! ## What a packet does to the table -/

namespace Server

variable {s : Server} {me sender : ConnectionId}

theorem peers_announce (s : Server) (id : String) (except? : Option ConnectionId) :
    (s.announce id except?).peers.peers = s.peers.peers := by
  unfold announce
  split <;> rfl

theorem peers_told (s : Server) (d : Directory) (ids : List String) (except? : Option ConnectionId) :
    (s.told d ids except?).peers.peers = s.peers.peers := by
  suffices h : ∀ s' : Server, (ids.foldl (fun s id => s.announce id except?) s').peers.peers = s'.peers.peers from h _
  induction ids with
  | nil => exact fun _ => rfl
  | cons id ids ih => exact fun s' => (ih _).trans (s'.peers_announce id except?)

theorem peers_handle (s : Server) (sender : ConnectionId) (p : Packet) :
    (s.handle sender p).1.peers.peers = s.peers.peers := by
  have h := s.handled sender p
  generalize s.handle sender p = out at h
  cases h with
  | answered | dropped | refused | withoutOrders | exhausted | checkedOut | resubmitted => rfl
  | loaded => exact peers_told s _ _ _
  | mismatched added e => exact congrArg PeerTable.peers (s.peers_numberAboveEntity added.entity)
  | added registryId r e =>
    exact (peers_told _ _ _ _).trans (congrArg PeerTable.peers (s.peers_numberAboveEntity e.entity))
  | deleted => exact peers_told s _ _ _

/-- A peer that is not encrypted is told nothing. -/
theorem queues_handle {p : Packet} {waiting : List Packet} (hq : s.peers.Queues me false waiting) (hne : sender ≠ me) :
    (s.handle sender p).1.peers.Queues me false waiting := by
  have hexcept : some sender ≠ some me := fun heq => hne (Option.some.inj heq)
  have h := s.handled sender p
  generalize s.handle sender p = out at h
  cases h with
  | answered | dropped | refused | withoutOrders | exhausted => exact hq
  | checkedOut o orders e =>
    have hq' : { s with nextOrderId := s.nextOrderId + 1 }.peers.Queues me false waiting := hq
    exact queues_filed hq' orders e hne _
  | resubmitted o orders e =>
    have hq' : (s.numberAbove o.orderId).peers.Queues me false waiting := hq
    exact queues_filed hq' orders e hne o
  | loaded => exact queues_told hq _ _ hexcept
  | mismatched added e => exact s.peers_numberAboveEntity added.entity ▸ hq
  | added registryId r e => exact queues_told (s.peers_numberAboveEntity e.entity ▸ hq) _ _ nofun
  | deleted => exact queues_told hq _ _ nofun

/-- A step of one connection that has nothing to show for the others but that
the connection may be gone. -/
structure Untouched (s s' : Server) (c : ConnectionId) : Prop where
  directory : s'.directory = s.directory
  counter : s'.nextOrderId = s.nextOrderId
  queues : ∀ c', c' ≠ c → s'.peers.waiting c' = s.peers.waiting c'
  events : s'.events = s.events ∨ s'.events = s.events ++ [.peerDisconnected c]

theorem Untouched.refl (s : Server) (c : ConnectionId) : s.Untouched s c := ⟨rfl, rfl, fun _ _ => rfl, .inl rfl⟩

end Server

/-! ## A turn -/

namespace ServerConnection

/-- What a connection does to the server before its turn is over: nothing while
it is in its handshake. -/
inductive Worked (s : Server) (c : ServerConnection) : Server → Prop
  | nothing : Worked s c s
  | handled (p : Packet) (he : c.session.isEncrypted = true) : Worked s c (s.handle c.id p).1
  | taken (p : Packet) (peers : PeerTable Packet) (he : c.session.isEncrypted = true)
    (htake : s.peers.take? c.mailbox = some (p, peers)) : Worked s c { s with peers }

/-- What a turn can do: the connection goes on or ends, or its handshake is
complete, which takes more than its other turns. -/
inductive Turned (admits : List Bytes → Prop) (s : Server) (c : ServerConnection) : Turn → Prop
  | stayed (s' : Server) (session : Session) (draws : Draws) (written : List Bytes) (hw : Worked s c s')
    (he : session.isEncrypted = c.session.isEncrypted) : Turned admits s c ⟨s', { c with session }, draws, written⟩
  | ended (s' : Server) (session : Session) (draws : Draws) (written : List Bytes) (hw : Worked s c s') :
    Turned admits s c (Turn.finish ⟨s', { c with session }, draws, written⟩)
  | admitted (session : Session) (draws : Draws) (written : List Bytes) (clientId : String)
    (he : session.isEncrypted = true) (h : admits written) :
    Turned admits s c
      ⟨{ s with
          peers := (s.peers.setClientId c.id clientId).markEncrypted c.id
        }.publish (.peerEncrypted c.id clientId),
        { c with session }, draws, written⟩

/-- A frame completes the handshake: the session accepts the key exchange in it,
and that the handshake is complete is what the turn writes. -/
def Accepts (suite : CipherSuite) (c : ServerConnection) (now : UInt64) (frame : Bytes) (written : List Bytes) : Prop :=
  ∃ opened body session done sealed, c.session.decode suite frame = (opened, .ok (.keyExchange body)) ∧
    opened.acceptKeyExchange suite now body = (session, .ok done) ∧
    (session.encode suite (.encryptComplete done)).2 = .ok sealed ∧ written = [sealed]

variable {suite : CipherSuite} {admits : List Bytes → Prop} {s : Server} {c : ServerConnection}

theorem turned_write {s' : Server} (hw : Worked s c s') {session : Session}
    (he : session.isEncrypted = c.session.isEncrypted) (draws : Draws) (ps : List Packet) :
    Turned admits s c (c.write suite s' session draws ps) := by
  have hsame := (session.alike_encodeAll suite ps).isEncrypted
  unfold write
  split
  · next session' frames hout =>
    rw [hout] at hsame
    exact .stayed s' session' draws frames hw (hsame.trans he)
  · next session' frames _ hout => exact .ended s' session' draws frames hw

theorem turned_serve (he : c.session.isEncrypted = true) {session : Session}
    (hs : session.isEncrypted = c.session.isEncrypted) (draws : Draws) (p : Packet) :
    Turned admits s c (c.serve suite s session draws p) := by
  unfold serve
  split
  · have hw : Worked s c (s.handle c.id p).1 := .handled p he
    split
    · next s' replies hout =>
      rw [hout] at hw
      exact turned_write hw hs draws replies
    · next s' e hout =>
      rw [hout] at hw
      dsimp only
      split
      · exact .ended s' session draws [] hw
      · exact .stayed s' session draws [] hw hs
  · exact .stayed s session draws [] .nothing hs

theorem isEncrypted_acceptHandshake {session session' : Session} {draws draws' : Draws} {p : HandShake} {hello : Hello}
    (h : session.acceptHandshake suite draws p = ((session', draws'), .ok hello)) : session'.isEncrypted = false := by
  unfold Session.acceptHandshake at h
  split at h <;> cases h
  rfl

theorem isEncrypted_acceptKeyExchange {session session' : Session} {now : UInt64} {p : KeyExchange}
    {complete : EncryptComplete} (h : session.acceptKeyExchange suite now p = (session', .ok complete)) :
    session'.isEncrypted = true := by
  unfold Session.acceptKeyExchange at h
  split at h
  · split at h <;> cases h
    rfl
  · cases h

theorem turned_admission (hopen : c.isOpen = true) {session : Session} (he : session.isEncrypted = true) (draws : Draws)
    (complete : EncryptComplete)
    (h : ∀ sealed, (session.encode suite (.encryptComplete complete)).2 = .ok sealed → admits [sealed]) :
    Turned admits s c (c.write suite s session draws [.encryptComplete complete]).welcome := by
  have hsame := (session.alike_encodeAll suite [.encryptComplete complete]).isEncrypted
  unfold write
  split
  · next session' frames hout =>
    rw [hout] at hsame
    obtain ⟨sealed, hsealed, rfl⟩ := Session.encodeAll_singleton hout
    have hserving : ServerConnection.isServing { c with session := session' } = true := by
      rw [isServing, hsame, he, hopen]
      rfl
    unfold Turn.welcome
    rw [if_pos hserving]
    exact .admitted session' draws [sealed] _ (hsame.trans he) (h sealed (congrArg Prod.snd hsealed))
  · next session' frames _ hout =>
    exact .ended s session' draws frames .nothing

theorem turned_shakeHands (hopen : c.isOpen = true) (hc : c.session.isEncrypted = false) {frame : Bytes} {now : UInt64}
    {opened : Session} {p : Packet} (hdecode : c.session.decode suite frame = (opened, .ok p)) (draws : Draws) :
    Turned (Accepts suite c now frame) s c (c.shakeHands suite s opened draws now p) := by
  unfold shakeHands
  split
  · next body =>
    split
    · next session draws' e hout => exact .ended s session draws' [] .nothing
    · next session draws' hello hout =>
      exact turned_write .nothing ((isEncrypted_acceptHandshake hout).trans hc.symm) draws' _
  · next body =>
    split
    · next session e hout => exact .ended s session draws [] .nothing
    · next session complete hout =>
      refine turned_admission hopen (isEncrypted_acceptKeyExchange hout) draws complete fun sealed hsealed => ?_
      exact ⟨opened, body, session, complete, sealed, hdecode, hout, hsealed, rfl⟩
  · exact .ended s opened.fail draws [] .nothing

theorem turned_receive (suite : CipherSuite) (s : Server) (c : ServerConnection) (draws : Draws) (now : UInt64)
    (frame : Bytes) :
    Turned (Accepts suite c now frame) s c (c.receive suite s draws now frame) := by
  unfold receive
  by_cases hopen : c.isOpen = true
  · rw [if_pos hopen]
    have hd := Session.decoded suite c.session frame
    generalize hdecode : c.session.decode suite frame = out at hd
    cases hd with
    | unopened e => exact .ended s c.session.fail draws [] .nothing
    | garbled message e => exact .stayed s c.session.counted draws [] .nothing c.session.alike_counted.isEncrypted
    | barred message p e => exact .ended s c.session.counted.fail draws [] .nothing
    | taken message p =>
      dsimp only
      by_cases he : c.session.isEncrypted = true
      · rw [if_pos he]
        exact turned_serve he c.session.alike_counted.isEncrypted draws p
      · rw [if_neg he]
        exact turned_shakeHands hopen (Bool.eq_false_iff.2 he) hdecode draws
  · rw [if_neg hopen]
    exact .stayed s c.session draws [] .nothing rfl

theorem turned_forward (s : Server) (c : ServerConnection) (draws : Draws) :
    Turned admits s c (c.forward suite s draws) := by
  unfold forward
  split
  · next hserving =>
    have he : c.session.isEncrypted = true := (Bool.and_eq_true_iff.1 hserving).2
    split
    · exact .stayed s c.session draws [] .nothing rfl
    · next p peers htake => exact turned_write (.taken p peers he htake) rfl draws [p]
  · exact .stayed s c.session draws [] .nothing rfl

theorem turned_lose (s : Server) (c : ServerConnection) (draws : Draws) : Turned admits s c (c.lose s draws) := by
  unfold lose
  dsimp only
  split
  · exact .ended s c.session draws [] .nothing
  · exact .stayed s c.session draws [] .nothing rfl

theorem turned_expire (s : Server) (c : ServerConnection) (draws : Draws) : Turned admits s c (c.expire s draws) := by
  unfold expire
  split
  · exact .ended s c.session.fail draws [] .nothing
  · exact .stayed s c.session draws [] .nothing rfl

/-- Time goes by, and may have run out for the handshake. -/
theorem turned_wait (s : Server) (c : ServerConnection) (draws : Draws) (p : Prop) [Decidable p] :
    Turned admits s c (if p then c.expire s draws else ⟨s, c, draws, []⟩) := by
  split
  · exact turned_expire s c draws
  · exact .stayed s c.session draws [] .nothing rfl

theorem turned_stop (s : Server) (c : ServerConnection) (draws : Draws) : Turned admits s c (c.stop s draws) := by
  unfold stop
  dsimp only
  split
  · exact .ended s c.session draws [] .nothing
  · exact .stayed s c.session draws [] .nothing rfl

theorem receive_garbled {frame : Bytes} (hopen : c.isOpen = true) (h : c.session.Garbles suite frame) (s : Server)
    (draws : Draws) (now : UInt64) : c.receive suite s draws now frame = .stay s c c.session.counted draws := by
  obtain ⟨e, hdecode⟩ := Session.decode_garbled h
  unfold receive
  rw [if_pos hopen, hdecode]
  rfl

theorem receive_misplaced {frame : Bytes} (hopen : c.isOpen = true) (h : c.session.Misplaces suite frame) (s : Server)
    (draws : Draws) (now : UInt64) :
    c.receive suite s draws now frame = (Turn.stay s c c.session.counted.fail draws).finish := by
  unfold receive
  rw [if_pos hopen]
  obtain ⟨e, hdecode⟩ | ⟨p, hdecode, he, hexpects⟩ := Session.decode_misplaced h
  · rw [hdecode]
    rfl
  · rw [hdecode]
    dsimp only
    rw [if_neg (Bool.eq_false_iff.1 he)]
    cases p with
    | handShake body => rw [shakeHands, Session.acceptHandshake_unexpected suite draws body hexpects]
    | keyExchange body => rw [shakeHands, Session.acceptKeyExchange_unexpected suite now body hexpects]
    | _ => rfl

theorem not_accepts_of_misplaces {frame : Bytes} (h : c.session.Misplaces suite frame) (now : UInt64)
    (written : List Bytes) : ¬c.Accepts suite now frame written := by
  rintro ⟨opened, body, session, done, sealed, hdecode, haccept, -⟩
  obtain ⟨e, hmisplaced⟩ | ⟨p, hmisplaced, -, hexpects⟩ := Session.decode_misplaced h
  · cases hdecode.symm.trans hmisplaced
  · cases hdecode.symm.trans hmisplaced
    cases haccept.symm.trans (Session.acceptKeyExchange_unexpected suite now body hexpects)

/-! ## What a turn does to the server -/

/-- The connection reads the mailbox of its entry in the table, in which nothing
waits while it is not encrypted. -/
structure Seated (s : Server) (c : ServerConnection) : Prop where
  entry : ∃ p, s.peers.get? c.id = some p ∧ p.mailbox = c.mailbox
  idle : c.session.isEncrypted = false → s.peers.Queues c.id false []

variable {t : Turn} {s' : Server} {me : ConnectionId}

theorem Worked.get? (h : Worked s c s') (me : ConnectionId) : s'.peers.get? me = s.peers.get? me := by
  have hpeers : s'.peers.peers = s.peers.peers := by
    cases h with
    | nothing => rfl
    | handled p => exact s.peers_handle c.id p
    | taken p peers he htake => exact PeerTable.peers_take? htake
  rw [PeerTable.get?, PeerTable.get?, hpeers]

theorem Worked.eq (h : Worked s c s') (hc : c.session.isEncrypted = false) : s' = s := by
  cases h with
  | nothing => rfl
  | handled p he | taken p peers he => exact absurd (hc.symm.trans he) Bool.false_ne_true

theorem Worked.queues (h : Worked s c s') (hc : Seated s c) (hne : c.id ≠ me) (hq : s.peers.Queues me false []) :
    s'.peers.Queues me false [] := by
  cases h with
  | nothing => exact hq
  | handled p => exact Server.queues_handle hq hne
  | taken p peers he htake =>
    obtain ⟨own, hown, hmailbox⟩ := hc.entry
    exact hq.take?_of_ne (fun p' hp' => hmailbox ▸ PeerTable.mailbox_ne hp' hown hne) htake

theorem Turned.id_eq (h : Turned admits s c t) : t.connection.id = c.id := by
  cases h <;> rfl

theorem get?_admitted (hne : c.id ≠ me) (clientId : String) :
    ((s.peers.setClientId c.id clientId).markEncrypted c.id).get? me = s.peers.get? me := by
  have hsame : ∀ (t : PeerTable Packet) (name? : Option String) (encrypted : Bool),
      (t.note c.id name? encrypted).get? me = t.get? me := by
    intro t name? encrypted
    rw [PeerTable.get?_note]
    cases hp : t.get? me with
    | none => rfl
    | some p => rw [Option.map_some, if_neg (PeerTable.connection_of_get? hp ▸ hne.symm)]
  exact (hsame _ none true).trans (hsame _ (some clientId) false)

theorem Turned.get?_other (h : Turned admits s c t) (hne : c.id ≠ me) :
    t.server.peers.get? me = s.peers.get? me := by
  cases h with
  | stayed s' session draws written hw => exact hw.get? me
  | ended s' session draws written hw => exact (s'.peers.get?_leave c.mailbox hne).trans (hw.get? me)
  | admitted session draws written clientId => exact get?_admitted hne clientId

theorem Turned.queues_other (h : Turned admits s c t) (hc : Seated s c) (hne : c.id ≠ me)
    (hq : s.peers.Queues me false []) : t.server.peers.Queues me false [] := by
  cases h with
  | stayed s' session draws written hw => exact hw.queues hc hne hq
  | ended s' session draws written hw =>
    obtain ⟨own, hown, hmailbox⟩ := hc.entry
    have hleft := (hw.queues hc hne hq).leave hne ((hw.get? c.id).trans hown)
    rw [hmailbox] at hleft
    exact hleft
  | admitted session draws written clientId => exact (hq.note hne (some clientId) false).note hne none true

theorem Turned.seated_other (h : Turned admits s c t) (hc : Seated s c) {d : ServerConnection} (hne : c.id ≠ d.id)
    (hd : Seated s d) : Seated t.server d :=
  ⟨h.get?_other hne ▸ hd.entry, fun he => h.queues_other hc hne (hd.idle he)⟩

theorem Turned.seated (h : Turned admits s c t) (hc : Seated s c) (hopen : t.connection.isOpen = true) :
    Seated t.server t.connection := by
  cases h with
  | stayed s' session draws written hw he =>
    refine ⟨(hw.get? c.id).symm ▸ hc.entry, fun hs => ?_⟩
    have hidle := he.symm.trans hs
    rw [hw.eq hidle]
    exact hc.idle hidle
  | ended => cases hopen
  | admitted session draws written clientId he =>
    refine ⟨?_, fun hs => absurd (hs.symm.trans he) Bool.false_ne_true⟩
    obtain ⟨p, hp, hmailbox⟩ := hc.entry
    have hconnection := PeerTable.connection_of_get? hp
    refine ⟨(p.note (some clientId) false).note none true, ?_, hmailbox⟩
    have hnamed : (s.peers.setClientId c.id clientId).get? c.id = some (p.note (some clientId) false) := by
      rw [PeerTable.setClientId, PeerTable.get?_note, hp, Option.map_some, if_pos hconnection]
    have hmarked := PeerTable.get?_note (s.peers.setClientId c.id clientId) c.id none true c.id
    have hsame : (p.note (some clientId) false).connection = c.id := hconnection
    rw [hnamed, Option.map_some, if_pos hsame] at hmarked
    exact hmarked

theorem Turned.encrypted (h : Turned admits s c t) (hopen : t.connection.isOpen = true)
    (he : t.connection.session.isEncrypted = true) : c.session.isEncrypted = true ∨ admits t.written := by
  cases h with
  | stayed s' session draws written hw hsame => exact .inl (hsame.symm.trans he)
  | ended => cases hopen
  | admitted session draws written clientId _ h => exact .inr h

theorem Turned.absent (h : Turned admits s c t) (hclosed : t.connection.isOpen = false) (hopen : c.isOpen = true) :
    t.server.peers.get? c.id = none := by
  cases h with
  | stayed | admitted => cases hopen.symm.trans hclosed
  | ended s' session draws written hw => exact s'.peers.get?_remove_self c.id

/-- The connection is over: it is closed, it has neither an entry nor an open
mailbox any more, and that it is gone was published. -/
structure Over (s : Server) (c : ServerConnection) (t : Turn) : Prop where
  closed : t.connection.isOpen = false
  absent : t.server.peers.get? c.id = none
  shut : t.server.peers.isOpen c.mailbox = false
  published : t.server.events = s.events ++ [.peerDisconnected c.id]

theorem over_finish (s : Server) (c : ServerConnection) (session : Session) (draws : Draws) (written : List Bytes) :
    Over s c (Turn.finish ⟨s, { c with session }, draws, written⟩) where
  closed := rfl
  absent := s.peers.get?_remove_self c.id
  shut := ((s.peers.remove c.id).isOpen_close c.mailbox c.mailbox).trans (by simp)
  published := rfl

theorem untouched_finish (hc : Seated s c) (session : Session) (draws : Draws) (written : List Bytes) :
    s.Untouched (Turn.finish ⟨s, { c with session }, draws, written⟩).server c.id := by
  refine ⟨rfl, rfl, fun c' hne => ?_, .inr rfl⟩
  obtain ⟨own, hown, hmailbox⟩ := hc.entry
  have hleft := PeerTable.waiting_leave hne.symm hown
  rw [hmailbox] at hleft
  exact hleft

/-- A turn of a connection in its handshake does nothing to the server, or it
completes the handshake. -/
theorem Turned.untouched (h : Turned admits s c t) (hc : Seated s c) (he : c.session.isEncrypted = false) :
    s.Untouched t.server c.id ∨ admits t.written := by
  cases h with
  | stayed s' session draws written hw =>
    rw [hw.eq he]
    exact .inl (.refl s c.id)
  | ended s' session draws written hw =>
    rw [hw.eq he]
    exact .inl (untouched_finish hc session draws written)
  | admitted session draws written clientId _ h => exact .inr h

end ServerConnection

end OrderDesk
