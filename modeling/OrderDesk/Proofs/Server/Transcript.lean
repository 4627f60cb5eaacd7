import OrderDesk.Proofs.Server.Stream

/-!
# The transcript of a connection

What a server writes on one of its connections along a run in which all of them
move, in any order. The connection's own frames and packets are its turns; every
other move leaves its session alone and at most adds to its queue.
Main result: `transcribes_run`.
-/

namespace OrderDesk

namespace ServerNode

section
variable (suite : CipherSuite)

/-- The frames that a move writes on a connection. -/
def wrote (n : ServerNode) (id : ConnectionId) : Move → List Bytes
  | .receive id' now frame => if id' = id then (n.receive suite id' now frame).2 else []
  | .forward id' => if id' = id then (n.forward suite id').2 else []
  | .lose id' => if id' = id then (n.lose id').2 else []
  | _ => []

/-- The turns that a move is for a connection: an encrypted one answers a packet
that it opens, and it takes the packet that has waited longest. -/
def said (n : ServerNode) (id : ConnectionId) : Move → List Said
  | .receive id' _ frame =>
    if id' = id then
      ((n.guests.find? (·.connection.id = id)).bind (·.connection.session.opens? suite frame)).toList.map fun p =>
        .replied (n.server.dispatch id p).2
    else []
  | .forward id' => if id' = id then (n.server.peers.waiting id).head?.toList.map .taken else []
  | _ => []

/-- What a move adds to the queue of a connection. -/
def queued (n : ServerNode) (id : ConnectionId) (m : Move) : List Packet :=
  ((n.after suite m).server.peers.waiting id).drop (n.server.peers.waiting id).length

def record (n : ServerNode) (id : ConnectionId) (x : Transcript) (m : Move) : Transcript :=
  x.add (n.wrote suite id m) (n.queued suite id m) (n.said suite id m)

def transcript (n : ServerNode) (id : ConnectionId) (ms : List Move) : Transcript :=
  Transcript.along (after suite) (fun n => n.record suite id) .blank n ms

/-- A key exchange that came on the connection at this time wraps the key for the
server and seals the nonce under it. -/
def Agreed (secret : Key) (id : ConnectionId) (ms : List Move) (nonce key : Key) (now : UInt64) : Prop :=
  ∃ frame body, .receive id now frame ∈ ms ∧ Packet.decode frame = .ok (.keyExchange body) ∧
    Session.sessionKeyOf suite secret nonce body = .ok key

/-- The transcript of a connection can be told of it, and of what waits for it as
long as it is open. -/
structure Transcribes (secret : Key) (agreed : Key → Key → UInt64 → Prop) (n : ServerNode) (id : ConnectionId)
    (x : Transcript) : Prop where
  tells : ServerConnection.Tells suite secret agreed x
  follows : ∀ g ∈ n.guests, g.connection.id = id → g.connection.Follows suite secret agreed n.server x

end

variable {suite : CipherSuite} {n n' : ServerNode} {g : Guest} {id : ConnectionId} {x : Transcript} {secret : Key}
  {agreed : Key → Key → UInt64 → Prop} {t : ServerConnection.Turn} {m : Move} {now : UInt64} {frame : Bytes}

theorem transcript_snoc (n : ServerNode) (id : ConnectionId) (ms : List Move) (m : Move) :
    n.transcript suite id (ms ++ [m]) = (n.run suite ms).record suite id (n.transcript suite id ms) m :=
  Transcript.along_snoc ..

/-! ## Moves that leave a connection alone -/

/-- The connection goes on as it was, if it is still there, and its queue has
only grown. -/
structure Stays (n n' : ServerNode) (id : ConnectionId) : Prop where
  guest : ∀ g' ∈ n'.guests, g'.connection.id = id → ∃ g ∈ n.guests, g.connection = g'.connection
  feeds : ∀ g' ∈ n'.guests, g'.connection.id = id → n.server.peers.Feeds n'.server.peers id

theorem Stays.refl (n : ServerNode) (id : ConnectionId) : n.Stays n id :=
  ⟨fun g' hg' _ => ⟨g', hg', rfl⟩, fun _ _ _ => .refl _ id⟩

theorem Stays.trans {n'' : ServerNode} (h : n.Stays n' id) (h' : n'.Stays n'' id) : n.Stays n'' id := by
  constructor
  · intro g'' hg'' hid
    obtain ⟨g', hg', heq⟩ := h'.guest g'' hg'' hid
    obtain ⟨g, hg, heq'⟩ := h.guest g' hg' (heq ▸ hid)
    exact ⟨g, hg, heq'.trans heq⟩
  · intro g'' hg'' hid
    obtain ⟨g', hg', heq⟩ := h'.guest g'' hg'' hid
    exact (h.feeds g' hg' (heq ▸ hid)).trans (h'.feeds g'' hg'' hid)

theorem stays_settle {admits : List Bytes → Prop} (h : n.Hosts) (hg : g ∈ n.guests)
    (ht : g.connection.Turned admits n.server t) (hquiet : g.connection.id = id → g.connection.Quiet n.server t) :
    n.Stays (n.settle t) id := by
  constructor
  · intro g' hg' hid
    obtain ⟨hopen, g₀, hg₀, rfl⟩ := mem_settle.1 hg'
    split at hopen
    · next heq =>
      rw [if_pos heq] at hid ⊢
      exact ⟨g, hg, ((hquiet (ht.id_eq.symm.trans hid)).2.2 hopen).2.symm⟩
    · next hne =>
      rw [if_neg hne]
      exact ⟨g₀, hg₀, rfl⟩
  · intro g' hg' hid
    by_cases hown : g.connection.id = id
    · obtain ⟨hopen, g₀, hg₀, rfl⟩ := mem_settle.1 hg'
      split at hopen
      · have hserver : (n.settle t).server = n.server := ((hquiet hown).2.2 hopen).1
        rw [hserver]
        exact .refl _ id
      · next hne =>
        rw [if_neg hne] at hid
        exact absurd (hid.trans (hown.symm.trans ht.id_eq.symm)) hne
    · exact ht.feeds (h.seated g hg) hown

theorem stays_turn {admits : ServerConnection → List Bytes → Prop} (h : n.Hosts) (id' : ConnectionId)
    {f : ServerConnection → ServerConnection.Turn} (hf : ∀ c : ServerConnection, c.Turned (admits c) n.server (f c))
    (hquiet : id' = id → ∀ c : ServerConnection, c.Quiet n.server (f c)) : n.Stays (n.turn id' f).1 id := by
  obtain heq | ⟨g, hg, -, hid, heq⟩ := n.turn_cases id' f
  · rw [heq]
    exact .refl n id
  · rw [heq]
    exact stays_settle h hg (hf g.connection) fun hown => hquiet (hid.symm.trans hown) g.connection

theorem stays_each (id : ConnectionId) {f : Server → Draws → Guest → ServerConnection.Turn}
    (hf : ∀ s draws, ∀ g : Guest, g.connection.Turned (fun _ => False) s (f s draws g))
    (hquiet : ∀ s draws, ∀ g : Guest, g.connection.Quiet s (f s draws g)) {gs : List Guest}
    (hgs : (gs.map (·.connection.id)).Nodup) (h : n.Hosts) (hmem : ∀ g ∈ gs, g ∈ n.guests) :
    n.Stays (gs.foldl (fun n g => n.settle (f n.server n.draws g)) n) id := by
  induction gs generalizing n with
  | nil => exact .refl n id
  | cons g gs ih =>
    obtain ⟨hnot, hrest⟩ := List.nodup_cons.1 hgs
    have hg := hmem g List.mem_cons_self
    have ht := hf n.server n.draws g
    have hstay := h.mem_settle_of_not_mem ht hnot fun g' hg' => hmem g' (List.mem_cons_of_mem g hg')
    exact (stays_settle h hg ht fun _ => hquiet n.server n.draws g).trans (ih hrest (h.settle hg ht) hstay)

theorem stays_accept (n : ServerNode) {id' : ConnectionId} (hne : id' ≠ id) : n.Stays (n.accept id') id := by
  by_cases hrunning : n.running = true
  · rw [accept_of_running hrunning]
    constructor
    · intro g' hg' hid
      obtain hg' | hg' := List.mem_append.1 hg'
      · exact ⟨g', hg', rfl⟩
      · rw [List.mem_singleton.1 hg'] at hid
        exact absurd hid hne
    · intro _ _ _
      exact PeerTable.feeds_of_queues fun encrypted waiting hq => hq.insert hne
  · have haccept : n.accept id' = n := if_neg hrunning
    rw [haccept]
    exact .refl n id

theorem stays_advance (h : n.Hosts) (milliseconds : Nat) : n.Stays (n.advance milliseconds) id := by
  have hwaited : { n with clock := n.clock + milliseconds }.Hosts := h.of_eq rfl rfl
  let isOver (g : Guest) : Prop := g.since + n.config.handshakeTimeout ≤ n.clock + milliseconds
  have heach := stays_each id (fun s draws g => ServerConnection.turned_wait s g.connection draws (isOver g))
    (fun s draws g => ServerConnection.quiet_wait s g.connection draws (isOver g)) hwaited.distinct hwaited
    fun g hg => hg
  exact ⟨heach.guest, heach.feeds⟩

theorem stays_shutdown (h : n.Hosts) : n.Stays n.shutdown id := by
  have hstopped : { n with running := false }.Hosts := h.of_eq rfl rfl
  have heach := stays_each id (fun s draws g => ServerConnection.turned_stop s g.connection draws)
    (fun s draws g => ServerConnection.quiet_stop s g.connection draws) hstopped.distinct hstopped fun g hg => hg
  exact ⟨heach.guest, heach.feeds⟩

theorem Transcribes.stay (h : n.Transcribes suite secret agreed id x) (hstays : n.Stays (n.after suite m) id)
    (hwrote : n.wrote suite id m = []) (hsaid : n.said suite id m = []) :
    (n.after suite m).Transcribes suite secret agreed id (n.record suite id x m) := by
  rw [record, hwrote, hsaid]
  refine ⟨h.tells.queued _, fun g' hg' hid => ?_⟩
  obtain ⟨g, hg, heq⟩ := hstays.guest g' hg' hid
  have hfollows := h.follows g hg (heq ▸ hid)
  rw [heq] at hfollows
  have hfed := hfollows.fed (hid.symm ▸ hstays.feeds g' hg' hid)
  rw [hid] at hfed
  exact hfed

/-! ## The turns of the connection -/

theorem Transcribes.settle {admits : List Bytes → Prop} {turns : List Said}
    (ht : g.connection.Turned admits n.server t)
    (hkeeps : ServerConnection.Keeps suite secret agreed x n.server t turns) :
    (n.settle t).Transcribes suite secret agreed g.connection.id (ServerConnection.recorded x n.server t turns) := by
  refine ⟨hkeeps.tells _, fun g' hg' hid => ?_⟩
  obtain ⟨hopen, g₀, hg₀, rfl⟩ := mem_settle.1 hg'
  split at hopen
  · next heq =>
    rw [if_pos heq]
    exact hkeeps.follows hopen
  · next hne =>
    rw [if_neg hne] at hid
    exact absurd (hid.trans ht.id_eq.symm) hne

theorem turn_of_absent (habsent : ∀ g ∈ n.guests, g.connection.id ≠ id)
    (f : ServerConnection → ServerConnection.Turn) : n.turn id f = (n, []) := by
  obtain heq | ⟨g, hg, -, hid, -⟩ := n.turn_cases id f
  · exact heq
  · exact absurd hid (habsent g hg)

theorem waiting_of_absent (hosts : n.Hosts) (habsent : ∀ g ∈ n.guests, g.connection.id ≠ id) :
    n.server.peers.waiting id = [] :=
  waiting_of_idle hosts fun g hg hid => absurd hid (habsent g hg)

/-- Nothing is recorded for a connection that is not there. -/
theorem record_of_absent (hosts : n.Hosts) (hosts' : (n.after suite m).Hosts)
    (habsent : ∀ g ∈ n.guests, g.connection.id ≠ id)
    (habsent' : ∀ g ∈ (n.after suite m).guests, g.connection.id ≠ id) (x : Transcript) :
    n.record suite id x m = x := by
  have hqueued : n.queued suite id m = [] := by
    rw [queued, waiting_of_absent hosts' habsent', List.drop_nil]
  have hwrote : n.wrote suite id m = [] := by
    unfold wrote
    split
    · exact ite_eq_right_iff.2 fun hid => congrArg Prod.snd (turn_of_absent (hid.symm ▸ habsent) _)
    · exact ite_eq_right_iff.2 fun hid => congrArg Prod.snd (turn_of_absent (hid.symm ▸ habsent) _)
    · exact ite_eq_right_iff.2 fun hid => congrArg Prod.snd (turn_of_absent (hid.symm ▸ habsent) _)
    · rfl
  have hsaid : n.said suite id m = [] := by
    have hnone : n.guests.find? (·.connection.id = id) = none := by
      refine List.find?_eq_none.2 fun g hg hid => ?_
      exact habsent g hg (of_decide_eq_true hid)
    unfold said
    split
    · rw [hnone]
      exact ite_self []
    · rw [waiting_of_absent hosts habsent]
      exact ite_self []
    · rfl
  rw [record, hqueued, hwrote, hsaid, Transcript.add_nil]

theorem transcribes_turn {admits : ServerConnection → List Bytes → Prop} (hosts : n.Hosts)
    (hosts' : (n.after suite m).Hosts) (h : n.Transcribes suite secret agreed id x)
    {f : ServerConnection → ServerConnection.Turn} (hf : ∀ c : ServerConnection, c.Turned (admits c) n.server (f c))
    (hafter : n.after suite m = (n.turn id f).1) (hwrote : n.wrote suite id m = (n.turn id f).2)
    (hkeeps : ∀ g ∈ n.guests, g.connection.id = id →
      ServerConnection.Keeps suite secret agreed x n.server (f g.connection) (n.said suite id m)) :
    (n.after suite m).Transcribes suite secret agreed id (n.record suite id x m) := by
  by_cases hguest : ∃ g ∈ n.guests, g.connection.id = id
  · obtain ⟨g, hg, rfl⟩ := hguest
    have hturn : n.turn g.connection.id f = (n.settle (f g.connection), (f g.connection).written) := by
      rw [turn, find?_guest hosts hg]
    rw [hturn] at hafter hwrote
    have hrecord : n.record suite g.connection.id x m =
        ServerConnection.recorded x n.server (f g.connection) (n.said suite g.connection.id m) := by
      rw [record, ServerConnection.recorded, queued, hafter, hwrote, (hf g.connection).id_eq]
      rfl
    rw [hrecord, hafter]
    exact Transcribes.settle (hf g.connection) (hkeeps g hg rfl)
  · have habsent : ∀ g ∈ n.guests, g.connection.id ≠ id := fun g hg hid => hguest ⟨g, hg, hid⟩
    rw [turn_of_absent habsent] at hafter
    rw [record_of_absent hosts hosts' habsent (hafter.symm ▸ habsent), hafter]
    exact h

theorem transcribes_receive (hosts : n.Hosts) (hosts' : (n.after suite (.receive id now frame)).Hosts)
    (h : n.Transcribes suite secret agreed id x)
    (hagreed : ∀ nonce key body, Packet.decode frame = .ok (.keyExchange body) →
      Session.sessionKeyOf suite secret nonce body = .ok key → agreed nonce key now) :
    (n.after suite (.receive id now frame)).Transcribes suite secret agreed id
      (n.record suite id x (.receive id now frame)) := by
  refine transcribes_turn hosts hosts' h
    (fun c => ServerConnection.turned_receive suite n.server c n.draws now frame) rfl (if_pos rfl) fun g hg hid => ?_
  subst hid
  have hfollows := h.follows g hg rfl
  have hopen := hosts.isOpen g hg
  have hsaid : n.said suite g.connection.id (.receive g.connection.id now frame) =
      (g.connection.session.opens? suite frame).toList.map fun p => .replied (n.server.dispatch g.connection.id p).2 := by
    rw [said, if_pos rfl, find?_guest hosts hg]
    rfl
  rw [hsaid]
  by_cases he : g.connection.session.isEncrypted = true
  · exact ServerConnection.keeps_receive_encrypted hfollows hopen he n.draws now frame
  · have hclosed : g.connection.session.opens? suite frame = none := if_neg he
    rw [hclosed]
    exact ServerConnection.keeps_receive_idle hfollows hopen (Bool.eq_false_iff.2 he) hagreed n.draws

theorem transcribes_forward (hosts : n.Hosts) (hosts' : (n.after suite (.forward id)).Hosts)
    (h : n.Transcribes suite secret agreed id x) :
    (n.after suite (.forward id)).Transcribes suite secret agreed id (n.record suite id x (.forward id)) := by
  have hf : ∀ c : ServerConnection, c.Turned (fun _ => False) n.server (c.forward suite n.server n.draws) :=
    fun c => ServerConnection.turned_forward n.server c n.draws
  refine transcribes_turn hosts hosts' h hf rfl (if_pos rfl) fun g hg hid => ?_
  subst hid
  have hsaid : n.said suite g.connection.id (.forward g.connection.id) =
      (n.server.peers.waiting g.connection.id).head?.toList.map .taken := if_pos rfl
  rw [hsaid]
  exact ServerConnection.keeps_forward (h.follows g hg rfl) (hosts.seated g hg) (hosts.isOpen g hg) n.draws

/-- A connection comes with nothing written and nothing queued. -/
theorem transcribes_accept (hsecret : n.secret = secret)
    (habsent : ∀ g ∈ n.guests, g.connection.id ≠ id) :
    (n.after suite (.accept id)).Transcribes suite secret agreed id (n.record suite id .blank (.accept id)) := by
  have hblank : ∀ queued, ServerConnection.Tells suite secret agreed ((Transcript.blank).add [] queued []) := fun queued =>
    ⟨.nothing ⟨rfl, rfl⟩, List.nil_prefix⟩
  refine ⟨hblank _, fun g hg hid => ?_⟩
  by_cases hrunning : n.running = true
  · have haccept : n.after suite (.accept id) = n.accept id := rfl
    rw [accept_of_running hrunning] at haccept
    rw [haccept] at hg
    obtain hg | hg := List.mem_append.1 hg
    · exact absurd hid (habsent g hg)
    · obtain rfl := List.mem_singleton.1 hg
      have hq : (n.after suite (.accept id)).server.peers.Queues id false [] := by
        rw [haccept]
        exact n.server.peers.queues_insert_self id
      refine ⟨hsecret ▸ .unencrypted none ⟨rfl, rfl⟩, [], hq, Packet.allSealed_nil, ?_⟩
      rw [record, queued, hq.waiting_eq, List.drop_nil]
      rfl
  · have haccept : n.after suite (.accept id) = n := if_neg hrunning
    exact absurd hid (habsent g (haccept ▸ hg))

/-! ## Whole runs -/

theorem wrote_lose (n : ServerNode) (id id' : ConnectionId) : n.wrote suite id (.lose id') = [] := by
  refine ite_eq_right_iff.2 fun _ => ?_
  obtain heq | ⟨g, -, -, -, heq⟩ := n.turn_cases id' fun c => c.lose n.server n.draws
  · exact congrArg Prod.snd heq
  · exact (congrArg Prod.snd heq).trans (g.connection.quiet_lose n.server n.draws).1

theorem Transcribes.after (h : n.Transcribes suite secret agreed id x) (hosts : n.Hosts)
    (hosts' : (n.after suite m).Hosts) (hsecret : n.secret = secret)
    (hsealed : ∀ p except?, m = .broadcast p except? → p.kind.travelsInClear = false)
    (hagreed : ∀ now frame, m = .receive id now frame → ∀ nonce key body,
      Packet.decode frame = .ok (.keyExchange body) → Session.sessionKeyOf suite secret nonce body = .ok key →
        agreed nonce key now)
    (hnew : m = .accept id → (∀ g ∈ n.guests, g.connection.id ≠ id) ∧ x = .blank) :
    (n.after suite m).Transcribes suite secret agreed id (n.record suite id x m) := by
  cases m with
  | accept id' =>
    by_cases hid : id' = id
    · subst hid
      obtain ⟨habsent, rfl⟩ := hnew rfl
      exact transcribes_accept hsecret habsent
    · exact h.stay (n.stays_accept hid) rfl rfl
  | receive id' now frame =>
    by_cases hid : id' = id
    · subst hid
      exact transcribes_receive hosts hosts' h (hagreed now frame rfl)
    · have hf := fun c : ServerConnection => ServerConnection.turned_receive suite n.server c n.draws now frame
      exact h.stay (stays_turn hosts id' hf fun hown => absurd hown hid) (if_neg hid) (if_neg hid)
  | forward id' =>
    by_cases hid : id' = id
    · subst hid
      exact transcribes_forward hosts hosts' h
    · have hf : ∀ c : ServerConnection, c.Turned (fun _ => False) n.server (c.forward suite n.server n.draws) :=
        fun c => ServerConnection.turned_forward n.server c n.draws
      exact h.stay (stays_turn hosts id' hf fun hown => absurd hown hid) (if_neg hid) (if_neg hid)
  | lose id' =>
    have hf : ∀ c : ServerConnection, c.Turned (fun _ => False) n.server (c.lose n.server n.draws) :=
      fun c => ServerConnection.turned_lose n.server c n.draws
    exact h.stay (stays_turn hosts id' hf fun _ c => c.quiet_lose n.server n.draws) (n.wrote_lose id id') rfl
  | broadcast p except? =>
    refine h.stay ⟨fun g' hg' _ => ⟨g', hg', rfl⟩, fun _ _ _ => ?_⟩ rfl rfl
    exact n.server.peers.feeds_broadcast (hsealed p except? rfl) except? id
  | advance milliseconds => exact h.stay (stays_advance hosts milliseconds) rfl rfl
  | shutdown => exact h.stay (stays_shutdown hosts) rfl rfl

theorem secret_each (n : ServerNode) (f : Server → Draws → Guest → ServerConnection.Turn) :
    (n.each f).secret = n.secret := by
  unfold each
  generalize n.guests = gs
  induction gs generalizing n with
  | nil => rfl
  | cons g gs ih => exact ih _

theorem secret_after (n : ServerNode) (m : Move) : (n.after suite m).secret = n.secret := by
  have hturn : ∀ id f, (n.turn id f).1.secret = n.secret := by
    intro id f
    obtain heq | ⟨g, -, -, -, heq⟩ := n.turn_cases id f <;> rw [heq]
    rfl
  cases m with
  | accept id =>
    have haccept : n.after suite (.accept id) = n.accept id := rfl
    rw [haccept, accept]
    split <;> rfl
  | receive id now frame => exact hturn id _
  | forward id => exact hturn id _
  | lose id => exact hturn id _
  | broadcast p except? => rfl
  | advance milliseconds =>
    have hadvance : n.after suite (.advance milliseconds) = n.advance milliseconds := rfl
    rw [hadvance, advance]
    exact secret_each _ _
  | shutdown =>
    have hshutdown : n.after suite .shutdown = n.shutdown := rfl
    rw [hshutdown, shutdown]
    exact secret_each _ _

theorem secret_run (n : ServerNode) (ms : List Move) : (n.run suite ms).secret = n.secret := by
  induction ms generalizing n with
  | nil => rfl
  | cons m ms ih => exact (ih _).trans (n.secret_after m)

/-- Whatever else a server does, the transcript of a connection can be told of
it. Until the connection is accepted the transcript is blank. -/
theorem transcribes_run (suite : CipherSuite) (config : ServerConfig) (secret? : Option Key) (directory : Directory)
    (draws : Draws) {ms : List Move} (hids : (ms.filterMap Move.accepted?).Nodup)
    (hsealed : ∀ p except?, .broadcast p except? ∈ ms → p.kind.travelsInClear = false) (id : ConnectionId)
    (hagreed : ∀ now frame, .receive id now frame ∈ ms → ∀ nonce key body,
      Packet.decode frame = .ok (.keyExchange body) →
        Session.sessionKeyOf suite (start config secret? directory draws).secret nonce body = .ok key →
          agreed nonce key now) :
    let n := start config secret? directory draws
    (n.run suite ms).Transcribes suite n.secret agreed id (n.transcript suite id ms) ∧
      (id ∉ ms.filterMap Move.accepted? → n.transcript suite id ms = .blank) := by
  intro n
  induction ms using List.reverseRecOn with
  | nil => exact ⟨⟨⟨.nothing ⟨rfl, rfl⟩, List.nil_prefix⟩, fun _ hg => absurd hg List.not_mem_nil⟩, fun _ => rfl⟩
  | append_singleton ms m ih =>
    have hids' := hids
    rw [List.filterMap_append, List.nodup_append] at hids'
    obtain ⟨htells, hblank⟩ := ih hids'.1 (fun p except? hp => hsealed p except? (List.mem_append_left _ hp))
      fun now frame hm => hagreed now frame (List.mem_append_left _ hm)
    have hreached := reached_start suite config secret? directory draws hids'.1
    have hreached' := reached_start suite config secret? directory draws hids
    have hrun : n.run suite (ms ++ [m]) = (n.run suite ms).after suite m := run_append n ms [m]
    have hosts' : ((n.run suite ms).after suite m).Hosts := hrun ▸ hreached'.hosts
    have hlast : m ∈ ms ++ [m] := List.mem_append_right _ (List.mem_singleton.2 rfl)
    rw [hrun, transcript_snoc]
    constructor
    · apply htells.after hreached.hosts hosts' (n.secret_run ms)
      · intro p except? hm
        exact hsealed p except? (hm ▸ hlast)
      · intro now frame hm
        exact hagreed now frame (hm ▸ hlast)
      · -- a connection that is accepted only now has not been there yet
        intro hm
        have hnot : id ∉ ms.filterMap Move.accepted? := fun hmem =>
          hids'.2.2 id hmem id (by rw [hm]; exact List.mem_singleton.2 rfl) rfl
        exact ⟨fun g hg hid => hnot (hid ▸ hreached.accepted g hg), hblank hnot⟩
    · intro hnot
      rw [List.filterMap_append, List.mem_append, not_or] at hnot
      have habsent : ∀ g ∈ (n.run suite ms).guests, g.connection.id ≠ id := fun g hg hid =>
        hnot.1 (hid ▸ hreached.accepted g hg)
      have habsent' : ∀ g ∈ ((n.run suite ms).after suite m).guests, g.connection.id ≠ id := fun g hg hid => by
        have haccepted := hreached'.accepted g (hrun.symm ▸ hg)
        rw [List.filterMap_append, List.mem_append, hid] at haccepted
        exact haccepted.elim hnot.1 hnot.2
      rw [record_of_absent hreached.hosts hosts' habsent habsent', hblank hnot.1]

end ServerNode

end OrderDesk
