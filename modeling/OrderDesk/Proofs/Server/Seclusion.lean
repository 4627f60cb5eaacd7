import Mathlib.Data.List.Induction
import OrderDesk.Proofs.Server.Turns
import OrderDesk.Server.Node

/-!
# Connections that are not yet encrypted

A server with all its connections, which come, send frames, wait and go in any
order. Nothing is queued for a connection whose session is not encrypted, and no
frame of such a connection acts on the server, up to the one that completes the
handshake.
Main result: `unadmitted_secluded`.
-/

namespace OrderDesk

namespace ServerNode

inductive Move
  | accept (id : ConnectionId)
  | receive (id : ConnectionId) (now : UInt64) (frame : Bytes)
  | forward (id : ConnectionId)
  | lose (id : ConnectionId)
  | broadcast (p : Packet) (except? : Option ConnectionId)
  | advance (milliseconds : Nat)
  | shutdown

def Move.accepted? : Move → Option ConnectionId
  | accept id => some id
  | _ => none

section
variable (suite : CipherSuite)

def after (n : ServerNode) : Move → ServerNode
  | .accept id => n.accept id
  | .receive id now frame => (n.receive suite id now frame).1
  | .forward id => (n.forward suite id).1
  | .lose id => (n.lose id).1
  | .broadcast p except? => n.broadcast p except?
  | .advance milliseconds => n.advance milliseconds
  | .shutdown => n.shutdown

def run (n : ServerNode) (ms : List Move) : ServerNode := ms.foldl (after suite) n

/-- The frame completes the handshake of the connection: its session accepts the
key exchange in it, and the node writes that the handshake is complete. -/
def Admits (n : ServerNode) (id : ConnectionId) (now : UInt64) (frame : Bytes) : Prop :=
  ∃ g, n.guests.find? (·.connection.id = id) = some g ∧
    g.connection.Accepts suite now frame (n.receive suite id now frame).2

/-- Some frame in the run completed the handshake of the connection. -/
def Admitted (n : ServerNode) (id : ConnectionId) (ms : List Move) : Prop :=
  ∃ pre now frame post, ms = pre ++ .receive id now frame :: post ∧ (n.run suite pre).Admits suite id now frame

end

/-- The guests are open connections with a seat each, and nobody else has an
entry in the table. -/
structure Hosts (n : ServerNode) : Prop where
  distinct : (n.guests.map (·.connection.id)).Nodup
  isOpen : ∀ g ∈ n.guests, g.connection.isOpen = true
  seated : ∀ g ∈ n.guests, g.connection.Seated n.server
  absent : ∀ id, (∀ g ∈ n.guests, g.connection.id ≠ id) → n.server.peers.get? id = none

/-- A guest was a guest before, and is encrypted only if it was so before or was
admitted. -/
def Descends (n n' : ServerNode) (admitted : ConnectionId → Prop) : Prop :=
  ∀ g' ∈ n'.guests, ∃ g ∈ n.guests, g.connection.id = g'.connection.id ∧
    (g'.connection.session.isEncrypted = true → g.connection.session.isEncrypted = true ∨ admitted g'.connection.id)

variable {suite : CipherSuite} {n : ServerNode} {g : Guest} {t : ServerConnection.Turn} {admits : List Bytes → Prop}

theorem mem_settle {g' : Guest} : g' ∈ (n.settle t).guests ↔ g'.connection.isOpen = true ∧
    ∃ g ∈ n.guests, g' = if g.connection.id = t.connection.id then { g with connection := t.connection } else g := by
  simp only [settle, List.mem_filter, List.mem_map]
  constructor
  · rintro ⟨⟨g, hg, rfl⟩, hopen⟩
    exact ⟨hopen, g, hg, rfl⟩
  · rintro ⟨hopen, g, hg, rfl⟩
    exact ⟨⟨g, hg, rfl⟩, hopen⟩

theorem eq_of_id_eq (h : n.Hosts) {g g' : Guest} (hg : g ∈ n.guests) (hg' : g' ∈ n.guests)
    (heq : g.connection.id = g'.connection.id) : g = g' :=
  List.inj_on_of_nodup_map h.distinct hg hg' heq

theorem mem_settle_of_ne {g' : Guest} (hg' : g' ∈ n.guests) (hopen : g'.connection.isOpen = true)
    (hne : g'.connection.id ≠ t.connection.id) : g' ∈ (n.settle t).guests :=
  mem_settle.2 ⟨hopen, g', hg', (if_neg hne).symm⟩

/-- The others are still there after a turn of a guest. -/
theorem Hosts.mem_settle_of_not_mem (h : n.Hosts) (ht : g.connection.Turned admits n.server t) {gs : List Guest}
    (hnot : g.connection.id ∉ gs.map (·.connection.id)) (hmem : ∀ g' ∈ gs, g' ∈ n.guests) :
    ∀ g' ∈ gs, g' ∈ (n.settle t).guests := by
  intro g' hg'
  refine mem_settle_of_ne (hmem g' hg') (h.isOpen g' (hmem g' hg')) fun heq => hnot ?_
  exact List.mem_map.2 ⟨g', hg', heq.trans ht.id_eq⟩

theorem Hosts.settle (h : n.Hosts) (hg : g ∈ n.guests) (ht : g.connection.Turned admits n.server t) :
    (n.settle t).Hosts := by
  have hid := ht.id_eq
  refine ⟨?_, fun g' hg' => (mem_settle.1 hg').1, fun g' hg' => ?_, fun id hnone => ?_⟩
  · have hids : (n.guests.map fun g => if g.connection.id = t.connection.id then { g with connection := t.connection }
        else g).map (·.connection.id) = n.guests.map (·.connection.id) := by
      rw [List.map_map]
      refine List.map_congr_left fun g _ => ?_
      rw [Function.comp_apply]
      split
      · next heq => exact heq.symm
      · rfl
    exact List.Nodup.sublist (List.filter_sublist.map _) (hids.symm ▸ h.distinct)
  · obtain ⟨hopen, g₀, hg₀, rfl⟩ := mem_settle.1 hg'
    split at hopen
    · next heq =>
      rw [if_pos heq]
      exact ht.seated (h.seated g hg) hopen
    · next hne =>
      rw [if_neg hne]
      exact ht.seated_other (h.seated g hg) (hid ▸ Ne.symm hne) (h.seated g₀ hg₀)
  · by_cases heq : g.connection.id = id
    · subst heq
      have hclosed : t.connection.isOpen = false := by
        refine Bool.eq_false_iff.2 fun hopen => ?_
        refine hnone { g with connection := t.connection } (mem_settle.2 ⟨hopen, g, hg, ?_⟩) hid
        rw [if_pos hid.symm]
      exact ht.absent hclosed (h.isOpen g hg)
    · refine (ht.get?_other heq).trans (h.absent id fun g' hg' hg'id => ?_)
      refine hnone g' (mem_settle_of_ne hg' (h.isOpen g' hg') fun htid => ?_) hg'id
      exact heq (hid.symm.trans (htid.symm.trans hg'id))

theorem descends_settle (h : n.Hosts) (hg : g ∈ n.guests) (ht : g.connection.Turned admits n.server t) :
    n.Descends (n.settle t) fun id => g.connection.id = id ∧ admits t.written := by
  have hid := ht.id_eq
  intro g' hg'
  obtain ⟨hopen, g₀, hg₀, rfl⟩ := mem_settle.1 hg'
  refine ⟨g₀, hg₀, ?_, fun he => ?_⟩
  · split
    · next heq => exact heq
    · rfl
  · split at hopen
    · next heq =>
      obtain rfl := eq_of_id_eq h hg₀ hg (heq.trans hid)
      rw [if_pos heq] at he ⊢
      exact (ht.encrypted hopen he).imp id fun hadmits => ⟨heq, hadmits⟩
    · next hne =>
      rw [if_neg hne] at he
      exact .inl he

theorem Descends.refl (n : ServerNode) (admitted : ConnectionId → Prop) : n.Descends n admitted :=
  fun g' hg' => ⟨g', hg', rfl, .inl⟩

theorem Descends.trans {n' n'' : ServerNode} {admitted : ConnectionId → Prop} (h : n.Descends n' admitted)
    (h' : n'.Descends n'' admitted) : n.Descends n'' admitted := by
  intro g'' hg''
  obtain ⟨g', hg', hid', he'⟩ := h' g'' hg''
  obtain ⟨g, hg, hid, he⟩ := h g' hg'
  exact ⟨g, hg, hid.trans hid', fun henc => (he' henc).elim (fun h => hid' ▸ he h) .inr⟩

theorem Descends.mono {n' : ServerNode} {admitted admitted' : ConnectionId → Prop} (h : n.Descends n' admitted)
    (hmono : ∀ id, admitted id → admitted' id) : n.Descends n' admitted' := by
  intro g' hg'
  obtain ⟨g, hg, hid, he⟩ := h g' hg'
  exact ⟨g, hg, hid, fun henc => (he henc).imp_right (hmono _)⟩

/-- A turn that cannot complete a handshake admits nobody. -/
theorem descends_settle_quiet (h : n.Hosts) (hg : g ∈ n.guests)
    (ht : g.connection.Turned (fun _ => False) n.server t) (admitted : ConnectionId → Prop) :
    n.Descends (n.settle t) admitted :=
  (descends_settle h hg ht).mono fun _ hadmits => hadmits.2.elim

/-! ## One move -/

theorem turn_cases (n : ServerNode) (id : ConnectionId) (f : ServerConnection → ServerConnection.Turn) :
    n.turn id f = (n, []) ∨ ∃ g ∈ n.guests, n.guests.find? (·.connection.id = id) = some g ∧ g.connection.id = id ∧
      n.turn id f = (n.settle (f g.connection), (f g.connection).written) := by
  unfold turn
  cases hfind : n.guests.find? (·.connection.id = id) with
  | none => exact .inl rfl
  | some g =>
    have hid := List.find?_some hfind
    exact .inr ⟨g, List.mem_of_find?_eq_some hfind, rfl, of_decide_eq_true hid, rfl⟩

theorem hosts_turn (h : n.Hosts) (id : ConnectionId) {f : ServerConnection → ServerConnection.Turn}
    {admits : ServerConnection → List Bytes → Prop} (hf : ∀ c : ServerConnection, c.Turned (admits c) n.server (f c)) :
    (n.turn id f).1.Hosts ∧ n.Descends (n.turn id f).1 fun id' => id = id' ∧
      ∃ g, n.guests.find? (·.connection.id = id) = some g ∧ admits g.connection (n.turn id f).2 := by
  obtain heq | ⟨g, hg, hfind, hid, heq⟩ := n.turn_cases id f
  · rw [heq]
    exact ⟨h, .refl n _⟩
  · rw [heq]
    refine ⟨h.settle hg (hf g.connection), (descends_settle h hg (hf g.connection)).mono fun id' hadmits => ?_⟩
    exact ⟨hid.symm.trans hadmits.1, g, hfind, hadmits.2⟩

theorem hosts_turn_quiet (h : n.Hosts) (id : ConnectionId) {f : ServerConnection → ServerConnection.Turn}
    (hf : ∀ c : ServerConnection, c.Turned (fun _ => False) n.server (f c)) (admitted : ConnectionId → Prop) :
    (n.turn id f).1.Hosts ∧ n.Descends (n.turn id f).1 admitted := by
  obtain ⟨hosts, hdescends⟩ := hosts_turn h id hf
  refine ⟨hosts, hdescends.mono fun id' hadmits => ?_⟩
  obtain ⟨-, -, -, hnever⟩ := hadmits
  exact hnever.elim

theorem hosts_receive (h : n.Hosts) (id : ConnectionId) (now : UInt64) (frame : Bytes) :
    (n.receive suite id now frame).1.Hosts ∧
      n.Descends (n.receive suite id now frame).1 fun id' => id = id' ∧ n.Admits suite id now frame :=
  hosts_turn h id fun c => ServerConnection.turned_receive suite n.server c n.draws now frame

theorem hosts_each {f : Server → Draws → Guest → ServerConnection.Turn}
    (hf : ∀ s draws, ∀ g : Guest, g.connection.Turned (fun _ => False) s (f s draws g)) (admitted : ConnectionId → Prop)
    {gs : List Guest} (hgs : (gs.map (·.connection.id)).Nodup) (h : n.Hosts) (hmem : ∀ g ∈ gs, g ∈ n.guests) :
    (gs.foldl (fun n g => n.settle (f n.server n.draws g)) n).Hosts ∧
      n.Descends (gs.foldl (fun n g => n.settle (f n.server n.draws g)) n) admitted := by
  induction gs generalizing n with
  | nil => exact ⟨h, .refl n admitted⟩
  | cons g gs ih =>
    obtain ⟨hnot, hrest⟩ := List.nodup_cons.1 hgs
    have hg := hmem g List.mem_cons_self
    have ht := hf n.server n.draws g
    have hstay := h.mem_settle_of_not_mem ht hnot fun g' hg' => hmem g' (List.mem_cons_of_mem g hg')
    obtain ⟨hhosts, hdescends⟩ := ih hrest (h.settle hg ht) hstay
    exact ⟨hhosts, (descends_settle_quiet h hg ht admitted).trans hdescends⟩

/-- The guest that a connection becomes. -/
def newcomer (n : ServerNode) (id : ConnectionId) : Guest :=
  ⟨⟨id, n.server.peers.mailboxes.length, .server n.secret, true⟩, n.clock⟩

theorem accept_of_running (h : n.running = true) (id : ConnectionId) : n.accept id = { n with
    server := { n.server with peers := n.server.peers.insert id }
    guests := n.guests ++ [n.newcomer id] } :=
  if_pos h

theorem hosts_accept (h : n.Hosts) {id : ConnectionId} (hnew : ∀ g ∈ n.guests, g.connection.id ≠ id) :
    (n.accept id).Hosts ∧ ∀ g' ∈ (n.accept id).guests,
      g' ∈ n.guests ∨ g'.connection.id = id ∧ g'.connection.session.isEncrypted = false := by
  by_cases hrunning : n.running = true
  · have hguests : ∀ g' ∈ n.guests ++ [n.newcomer id], g' ∈ n.guests ∨ g' = n.newcomer id := fun g' hg' => by
      simpa using hg'
    rw [accept_of_running hrunning]
    refine ⟨⟨?_, fun g hg => ?_, fun g hg => ?_, fun id' hnone => ?_⟩, fun g hg => ?_⟩
    · rw [List.map_append, List.nodup_append]
      refine ⟨h.distinct, by simp, ?_⟩
      rintro a ha b hb rfl
      obtain ⟨g, hg, rfl⟩ := List.mem_map.1 ha
      exact hnew g hg (by simpa [newcomer] using hb)
    · obtain hg | rfl := hguests g hg
      · exact h.isOpen g hg
      · rfl
    · obtain hg | rfl := hguests g hg
      · have hne := (hnew g hg).symm
        have hseat := h.seated g hg
        exact ⟨(n.server.peers.get?_insert hne).symm ▸ hseat.entry, fun he => (hseat.idle he).insert hne⟩
      · exact ⟨⟨_, n.server.peers.get?_insert_self id, rfl⟩, fun _ => n.server.peers.queues_insert_self id⟩
    · have hne : id ≠ id' := hnone (n.newcomer id) (by simp)
      exact (n.server.peers.get?_insert hne).trans (h.absent id' fun g hg => hnone g (by simp [hg]))
    · obtain hg | rfl := hguests g hg
      · exact .inl hg
      · exact .inr ⟨rfl, rfl⟩
  · have haccept : n.accept id = n := if_neg hrunning
    rw [haccept]
    exact ⟨h, fun g' hg' => .inl hg'⟩

theorem hosts_broadcast (h : n.Hosts) (p : Packet) (except? : Option ConnectionId) : (n.broadcast p except?).Hosts := by
  refine ⟨h.distinct, h.isOpen, fun g hg => ⟨(h.seated g hg).entry, fun he => ?_⟩, h.absent⟩
  have hq := (h.seated g hg).idle he
  by_cases hexcept : except? = some g.connection.id
  · rw [hexcept]
    exact hq.broadcast_self p
  · exact hq.broadcast p hexcept

theorem Hosts.of_eq {n' : ServerNode} (h : n.Hosts) (hserver : n'.server = n.server) (hguests : n'.guests = n.guests) :
    n'.Hosts := by
  obtain ⟨hdistinct, hopen, hseated, habsent⟩ := h
  rw [← hguests] at hdistinct hopen hseated habsent
  rw [← hserver] at hseated habsent
  exact ⟨hdistinct, hopen, hseated, habsent⟩

theorem hosts_advance (h : n.Hosts) (milliseconds : Nat) (admitted : ConnectionId → Prop) :
    (n.advance milliseconds).Hosts ∧ n.Descends (n.advance milliseconds) admitted := by
  have hwaited : { n with clock := n.clock + milliseconds }.Hosts := h.of_eq rfl rfl
  let isOver (g : Guest) : Prop := g.since + n.config.handshakeTimeout ≤ n.clock + milliseconds
  exact hosts_each (fun s draws g => ServerConnection.turned_wait s g.connection draws (isOver g)) admitted
    hwaited.distinct hwaited fun g hg => hg

theorem hosts_shutdown (h : n.Hosts) (admitted : ConnectionId → Prop) :
    n.shutdown.Hosts ∧ n.Descends n.shutdown admitted := by
  have hstopped : { n with running := false }.Hosts := h.of_eq rfl rfl
  have hturned : ∀ s draws, ∀ g : Guest, g.connection.Turned (fun _ => False) s (g.connection.stop s draws) :=
    fun s draws g => ServerConnection.turned_stop s g.connection draws
  exact hosts_each hturned admitted hstopped.distinct hstopped fun g hg => hg

/-! ## Whole runs -/

theorem run_append (n : ServerNode) (ms ms' : List Move) :
    n.run suite (ms ++ ms') = (n.run suite ms).run suite ms' :=
  List.foldl_append

/-- What a run comes to: the node hosts its guests, each of which was accepted,
and is encrypted only if it was admitted. -/
structure Reached (suite : CipherSuite) (n : ServerNode) (ms : List Move) : Prop where
  hosts : (n.run suite ms).Hosts
  accepted : ∀ g ∈ (n.run suite ms).guests, g.connection.id ∈ ms.filterMap Move.accepted?
  admitted : ∀ g ∈ (n.run suite ms).guests, g.connection.session.isEncrypted = true →
    n.Admitted suite g.connection.id ms

theorem Admitted.append {id : ConnectionId} {ms : List Move} (h : n.Admitted suite id ms) (ms' : List Move) :
    n.Admitted suite id (ms ++ ms') := by
  obtain ⟨pre, now, frame, post, rfl, hadmits⟩ := h
  exact ⟨pre, now, frame, post ++ ms', by simp, hadmits⟩

theorem Reached.descend {ms : List Move} {m : Move} (h : n.Reached suite ms)
    (hosts : ((n.run suite ms).after suite m).Hosts)
    (hdescends : (n.run suite ms).Descends ((n.run suite ms).after suite m) fun id =>
      ∃ now frame, m = .receive id now frame ∧ (n.run suite ms).Admits suite id now frame) :
    n.Reached suite (ms ++ [m]) := by
  have hrun : n.run suite (ms ++ [m]) = (n.run suite ms).after suite m := run_append n ms [m]
  refine ⟨hrun ▸ hosts, fun g' hg' => ?_, fun g' hg' he => ?_⟩
  · rw [hrun] at hg'
    obtain ⟨g, hg, hid, -⟩ := hdescends g' hg'
    rw [List.filterMap_append, ← hid]
    exact List.mem_append_left _ (h.accepted g hg)
  · rw [hrun] at hg'
    obtain ⟨g, hg, hid, henc⟩ := hdescends g' hg'
    obtain hbefore | ⟨now, frame, rfl, hadmits⟩ := henc he
    · exact hid ▸ (h.admitted g hg hbefore).append [m]
    · exact ⟨ms, now, frame, [], rfl, hadmits⟩

theorem Reached.after {ms : List Move} {m : Move} (h : n.Reached suite ms)
    (hids : ((ms ++ [m]).filterMap Move.accepted?).Nodup) : n.Reached suite (ms ++ [m]) := by
  cases m with
  | accept id =>
    have hrun : n.run suite (ms ++ [.accept id]) = (n.run suite ms).accept id := run_append n ms [.accept id]
    have hnew : ∀ g ∈ (n.run suite ms).guests, g.connection.id ≠ id := by
      rintro g hg rfl
      rw [List.filterMap_append, List.nodup_append] at hids
      exact hids.2.2 _ (h.accepted g hg) _ (List.mem_singleton.2 rfl) rfl
    obtain ⟨hosts, hguests⟩ := hosts_accept h.hosts hnew
    refine ⟨hrun ▸ hosts, fun g hg => ?_, fun g hg he => ?_⟩
    · rw [hrun] at hg
      rw [List.filterMap_append]
      obtain hg | ⟨rfl, -⟩ := hguests g hg
      · exact List.mem_append_left _ (h.accepted g hg)
      · exact List.mem_append_right _ (List.mem_singleton.2 rfl)
    · rw [hrun] at hg
      obtain hg | ⟨-, hidle⟩ := hguests g hg
      · exact (h.admitted g hg he).append _
      · exact absurd (hidle.symm.trans he) Bool.false_ne_true
  | receive id now frame =>
    obtain ⟨hosts, hdescends⟩ := hosts_receive h.hosts id now frame
    refine h.descend hosts (hdescends.mono ?_)
    rintro id' ⟨rfl, hadmits⟩
    exact ⟨now, frame, rfl, hadmits⟩
  | forward id =>
    obtain ⟨hosts, hdescends⟩ := hosts_turn_quiet h.hosts id (fun c => ServerConnection.turned_forward _ c _) _
    exact h.descend hosts hdescends
  | lose id =>
    obtain ⟨hosts, hdescends⟩ := hosts_turn_quiet h.hosts id (fun c => ServerConnection.turned_lose _ c _) _
    exact h.descend hosts hdescends
  | broadcast p except? => exact h.descend (hosts_broadcast h.hosts p except?) fun g' hg' => ⟨g', hg', rfl, .inl⟩
  | advance milliseconds =>
    obtain ⟨hosts, hdescends⟩ := hosts_advance h.hosts milliseconds _
    exact h.descend hosts hdescends
  | shutdown =>
    obtain ⟨hosts, hdescends⟩ := hosts_shutdown h.hosts _
    exact h.descend hosts hdescends

theorem reached_start (suite : CipherSuite) (config : ServerConfig) (secret? : Option Key) (directory : Directory)
    (draws : Draws) {ms : List Move} (hids : (ms.filterMap Move.accepted?).Nodup) :
    (start config secret? directory draws).Reached suite ms := by
  induction ms using List.reverseRecOn with
  | nil => exact ⟨⟨List.nodup_nil, nofun, nofun, fun _ _ => rfl⟩, nofun, nofun⟩
  | append_singleton ms m ih =>
    have hids' := hids
    rw [List.filterMap_append] at hids'
    exact (ih (List.nodup_append.1 hids').1).after hids

theorem find?_guest (h : n.Hosts) (hg : g ∈ n.guests) :
    n.guests.find? (·.connection.id = g.connection.id) = some g := by
  cases hout : n.guests.find? (·.connection.id = g.connection.id) with
  | none => exact absurd (decide_eq_true rfl) (List.find?_eq_none.1 hout g hg)
  | some g' =>
    have hid := List.find?_some hout
    rw [eq_of_id_eq h (List.mem_of_find?_eq_some hout) hg (of_decide_eq_true hid)]

/-- A frame on the connection of a guest is a turn of that connection. -/
theorem receive_guest (suite : CipherSuite) (h : n.Hosts) (hg : g ∈ n.guests) (now : UInt64) (frame : Bytes) :
    let t := g.connection.receive suite n.server n.draws now frame
    n.receive suite g.connection.id now frame = (n.settle t, t.written) := by
  intro t
  rw [receive, turn, find?_guest h hg]

theorem waiting_of_idle (h : n.Hosts) {id : ConnectionId}
    (hidle : ∀ g ∈ n.guests, g.connection.id = id → g.connection.session.isEncrypted = false) :
    n.server.peers.waiting id = [] := by
  by_cases hguest : ∃ g ∈ n.guests, g.connection.id = id
  · obtain ⟨g, hg, rfl⟩ := hguest
    exact ((h.seated g hg).idle (hidle g hg rfl)).waiting_eq
  · have habsent := h.absent id fun g hg hid => hguest ⟨g, hg, hid⟩
    rw [PeerTable.waiting, habsent]
    rfl

theorem untouched_of_idle (suite : CipherSuite) (h : n.Hosts) {id : ConnectionId}
    (hidle : ∀ g ∈ n.guests, g.connection.id = id → g.connection.session.isEncrypted = false) (now : UInt64)
    (frame : Bytes) :
    n.Admits suite id now frame ∨ n.server.Untouched (n.receive suite id now frame).1.server id := by
  obtain heq | ⟨g, hg, hfind, hid, heq⟩ := n.turn_cases id fun c => c.receive suite n.server n.draws now frame
  · rw [receive, heq]
    exact .inr (.refl n.server id)
  · have ht := ServerConnection.turned_receive suite n.server g.connection n.draws now frame
    have hwritten : (n.receive suite id now frame).2 =
        (g.connection.receive suite n.server n.draws now frame).written := congrArg Prod.snd heq
    obtain huntouched | haccepts := ht.untouched (h.seated g hg) (hidle g hg hid)
    · rw [receive, heq]
      exact .inr (hid ▸ huntouched)
    · exact .inl ⟨g, hfind, hwritten ▸ haccepts⟩

/-- Nothing waits for a connection that was not admitted, and no frame that
comes on it does anything to the server, unless it is the one that completes
the handshake. -/
theorem unadmitted_secluded (suite : CipherSuite) (config : ServerConfig) (secret? : Option Key) (directory : Directory)
    (draws : Draws) {ms : List Move} (hids : (ms.filterMap Move.accepted?).Nodup) {id : ConnectionId}
    (hnot : ¬(start config secret? directory draws).Admitted suite id ms) :
    let n := (start config secret? directory draws).run suite ms
    n.server.peers.waiting id = [] ∧
      ∀ now frame, n.Admits suite id now frame ∨ n.server.Untouched (n.receive suite id now frame).1.server id := by
  have hreached := reached_start suite config secret? directory draws hids
  have hidle : ∀ g ∈ ((start config secret? directory draws).run suite ms).guests, g.connection.id = id →
      g.connection.session.isEncrypted = false := by
    rintro g hg rfl
    exact Bool.eq_false_iff.2 fun he => hnot (hreached.admitted g hg he)
  exact ⟨waiting_of_idle hreached.hosts hidle, untouched_of_idle suite hreached.hosts hidle⟩

end ServerNode

end OrderDesk
