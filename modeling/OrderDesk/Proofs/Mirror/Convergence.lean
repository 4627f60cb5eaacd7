import OrderDesk.Proofs.Mirror.Topics

/-!
# Convergence of a kiosk

The server, a kiosk, and the packets that are written to the kiosk and not yet
processed. Answers overtake what waits in the mailbox, so a kiosk may fall back
behind what it had; the invariant says that what is still on its way repairs
that. Main result: `converges`.
-/

namespace OrderDesk

structure Mirror where
  server : Server
  /-- What is written to the connection and not yet processed, oldest first. -/
  wire : List Packet
  kiosk : Kiosk

namespace Mirror

/-- A move of the server, or of the kiosk on a connection. The kiosk sends
requests only. -/
inductive Move (me : ConnectionId)
  | elsewhere (m : Server.Move) (h : m.connection ≠ me)
  | request (registryId : String)
  | forward
  | process

variable {me : ConnectionId}

def write (x : Mirror) (m : Server.Move) : Mirror :=
  { x with server := x.server.after m, wire := x.wire ++ (x.server.act m).2 }

def process (x : Mirror) : Mirror :=
  match x.wire with
  | [] => x
  | p :: rest =>
    { x with wire := rest, kiosk := if p.kind.isAcceptedBy .client then (x.kiosk.handle p).1 else x.kiosk }

def after (x : Mirror) : Move me → Mirror
  | .elsewhere m _ => { x with server := x.server.after m }
  | .request registryId => x.write (.packet me (.requestData ⟨registryId⟩))
  | .forward => x.write (.forward me)
  | .process => x.process

def run (x : Mirror) (ms : List (Move me)) : Mirror := ms.foldl after x

/-- A kiosk joins a server that has been running, and finishes its handshake
while others go on. -/
def start (shop kiosk : Directory) (me : ConnectionId) (clientId : String) (before : List Server.Move)
    (during : List { m : Server.Move // m.connection ≠ me }) : Mirror where
  server := ((((Server.start shop).run before).join me).run (during.map (·.val))).welcome me clientId
  wire := []
  kiosk := .start kiosk

/-- The server knows the kiosk, which has registries of the same shape. What
waits for it says nothing that the server would not say now. -/
structure Follows (me : ConnectionId) (x : Mirror) (waiting : List Packet) : Prop where
  queues : x.server.peers.Queues me true waiting
  shape : x.kiosk.directory.shape = x.server.directory.shape
  owns : ∀ id, x.server.directory.Owns id
  sound : ∀ p ∈ x.wire ++ waiting, Sound x.server.directory.shape p
  settled : ∀ t : Topic, t.Watched x.server.directory.shape →
    t.hearAll (t.read x.server.directory) waiting = t.read x.server.directory

/-- What is on its way brings the kiosk to where the server is. -/
structure Synced (x : Mirror) (waiting : List Packet) : Prop where
  hears : ∀ t : Topic, t.Watched x.server.directory.shape →
    t.hearAll (t.read x.kiosk.directory) (x.wire ++ waiting) = t.read x.server.directory
  /-- Orders do not go by own ids before the first snapshot. -/
  orders : Live x.server.directory.shape → x.kiosk.directory.Owns RegistryId.orders ∨
    ∃ snapshot : ResponseData, .responseData snapshot ∈ x.wire ∧ snapshot.registryId = RegistryId.orders

variable {x : Mirror} {waiting : List Packet}

theorem Synced.orders_append (hs : x.Synced waiting) (hlive : Live x.server.directory.shape) (ps : List Packet) :
    x.kiosk.directory.Owns RegistryId.orders ∨
      ∃ snapshot : ResponseData, .responseData snapshot ∈ x.wire ++ ps ∧ snapshot.registryId = RegistryId.orders := by
  rcases hs.orders hlive with hown | ⟨snapshot, hmem, hid⟩
  · exact .inl hown
  · exact .inr ⟨snapshot, List.mem_append_left ps hmem, hid⟩

/-! ## One move -/

theorem Follows.elsewhere (h : x.Follows me waiting) {m : Server.Move} (hm : m.connection ≠ me) :
    ∃ waiting', (x.after (.elsewhere m hm)).Follows me waiting' ∧
      (x.Synced waiting → (x.after (.elsewhere m hm)).Synced waiting') := by
  obtain ⟨ps, hq, hsound, hhears⟩ := Server.after_relays hm h.owns h.queues
  have hkeeps := x.server.after_keeps m
  have hshape : (x.server.after m).directory.shape = x.server.directory.shape := hkeeps.shape
  refine ⟨waiting ++ ps, ⟨hq, h.shape.trans hshape.symm, fun id => hkeeps.owns id (h.owns id), ?_, ?_⟩,
    fun hs => ⟨?_, ?_⟩⟩
  · intro p hp
    rw [← List.append_assoc] at hp
    rcases List.mem_append.1 hp with hp | hp
    · exact hshape ▸ h.sound p hp
    · exact hsound p hp
  · intro t ht
    have ht' : t.Watched x.server.directory.shape := hshape ▸ ht
    have hall : t.hearAll (t.read x.server.directory) (waiting ++ ps) = t.read (x.server.after m).directory := by
      rw [t.hearAll_append, h.settled t ht']
      exact hhears t ht'
    exact t.hearAll_twice hall
  · intro t ht
    have ht' : t.Watched x.server.directory.shape := hshape ▸ ht
    have hwire := hs.hears t ht'
    rw [← List.append_assoc, t.hearAll_append]
    exact hwire.symm ▸ hhears t ht'
  · exact fun hlive => hs.orders (hshape ▸ hlive)

theorem after_request (x : Mirror) (registryId : String) : x.after (.request registryId : Move me) =
    { x with wire := x.wire ++
        x.server.directory.news (if registryId = RegistryId.all then x.server.directory.ids else [registryId]) } := by
  have hact := x.server.dispatch_request me registryId
  have hserver : x.server.after (.packet me (.requestData ⟨registryId⟩)) = x.server := congrArg Prod.fst hact
  have hwritten := congrArg Prod.snd hact
  rw [after, write, hserver]
  exact congrArg (fun ps => { x with wire := x.wire ++ ps }) hwritten

theorem Follows.request (h : x.Follows me waiting) (registryId : String) :
    (x.after (.request registryId : Move me)).Follows me waiting ∧
      (x.Synced waiting → (x.after (.request registryId : Move me)).Synced waiting) := by
  rw [after_request]
  generalize (if registryId = RegistryId.all then x.server.directory.ids else [registryId]) = ids
  refine ⟨⟨h.queues, h.shape, h.owns, ?_, h.settled⟩, fun hs => ⟨fun t ht => ?_, fun hlive => ?_⟩⟩
  · intro p hp
    rcases List.mem_append.1 hp with hp | hp
    · rcases List.mem_append.1 hp with hp | hp
      · exact h.sound p (List.mem_append_left _ hp)
      · exact Directory.sound_news h.owns ids p hp
    · exact h.sound p (List.mem_append_right _ hp)
  · have hwire := hs.hears t ht
    rw [t.hearAll_append] at hwire
    rw [t.hearAll_append, t.hearAll_append]
    exact t.hearAll_between (x.server.directory.hearAll_news ht fun _ => rfl) hwire
  · exact hs.orders_append hlive _

theorem Follows.requestAll (h : x.Follows me waiting) :
    (x.after (.request RegistryId.all : Move me)).Synced waiting := by
  rw [after_request, if_pos rfl]
  refine ⟨fun t ht => ?_, fun hlive => .inr ?_⟩
  · have hmem : t.registryId ∈ x.server.directory.ids := by
      obtain ⟨r, hr⟩ := Directory.exists_of_watched ht
      exact Directory.id_of_get? hr ▸ List.mem_map_of_mem (Directory.mem_of_get? hr)
    rw [t.hearAll_append, t.hearAll_append, x.server.directory.hearAll_news ht fun hnot => absurd hmem hnot]
    exact h.settled t ht
  · obtain ⟨r, hr⟩ := Directory.live_iff.1 hlive
    have hget := (Directory.orders?_eq_some_iff.1 hr).1
    refine ⟨r.response, List.mem_append_right _ ?_, Directory.id_of_get? hget⟩
    rw [Directory.news_ids]
    exact List.mem_map_of_mem (Directory.mem_of_get? hget)

theorem Follows.forward (h : x.Follows me waiting) :
    ∃ waiting', (x.after (.forward : Move me)).Follows me waiting' ∧
      (x.Synced waiting → (x.after (.forward : Move me)).Synced waiting') := by
  have hq := h.queues
  obtain ⟨peer, hpeer, -⟩ := h.queues
  cases waiting with
  | nil =>
    have hafter : x.after (.forward : Move me) = x := by
      simp [after, write, Server.after, Server.act, Server.forward, hpeer, hq.take?_nil hpeer]
    rw [hafter]
    exact ⟨[], h, id⟩
  | cons p rest =>
    obtain ⟨peers, hsome, hrest⟩ := hq.take?_cons hpeer
    have hafter : x.after (.forward : Move me) = ⟨{ x.server with peers }, x.wire ++ [p], x.kiosk⟩ := by
      simp [after, write, Server.after, Server.act, Server.forward, hpeer, hsome]
    have hwire : x.wire ++ [p] ++ rest = x.wire ++ p :: rest := (List.append_cons x.wire p rest).symm
    rw [hafter]
    refine ⟨rest, ⟨hrest, h.shape, h.owns, hwire ▸ h.sound, fun t ht => ?_⟩, fun hs => ⟨fun t ht => ?_, fun hlive => ?_⟩⟩
    · have hsettled : t.hearAll (t.hear (t.read x.server.directory) p) rest = t.read x.server.directory := h.settled t ht
      exact t.hearAll_twice hsettled
    · exact hwire ▸ hs.hears t ht
    · exact hs.orders_append hlive [p]

theorem isAcceptedBy_of_sound {shape : String → Option (EntityKind × Policy)} {p : Packet} (h : Sound shape p) :
    p.kind.isAcceptedBy .client = true := by
  cases p with
  | responseData | orderUpdated => rfl
  | _ => exact h.elim

theorem live_of_sound {shape : String → Option (EntityKind × Policy)} {p : Packet} (h : Sound shape p)
    (hp : ∀ snapshot, p ≠ .responseData snapshot) : Live shape := by
  cases p with
  | responseData snapshot => exact absurd rfl (hp snapshot)
  | orderUpdated => exact h
  | _ => exact h.elim

section
variable {p : Packet} {rest : List Packet}

theorem process_cons (hwire : x.wire = p :: rest) {shape : String → Option (EntityKind × Policy)} (hp : Sound shape p) :
    x.process = ⟨x.server, rest, (x.kiosk.handle p).1⟩ := by
  rw [Mirror.process, hwire]
  exact congrArg (Mirror.mk x.server rest) (if_pos (isAcceptedBy_of_sound hp))

theorem Follows.sound_head (h : x.Follows me waiting) (hwire : x.wire = p :: rest) :
    Sound x.kiosk.directory.shape p := by
  rw [h.shape]
  exact h.sound p (by simp [hwire])

theorem Follows.process (h : x.Follows me waiting) (hwire : x.wire = p :: rest) : x.process.Follows me waiting := by
  have hp := h.sound_head hwire
  obtain ⟨hkeeps, -, -⟩ := Kiosk.handle_hears hp
  rw [process_cons hwire hp]
  refine ⟨h.queues, hkeeps.shape.trans h.shape, h.owns, fun q hq => h.sound q ?_, h.settled⟩
  rw [hwire]
  exact List.mem_cons_of_mem p hq

/-- An order that comes before the first snapshot is not taken at its word, but
that snapshot is still on its way. -/
theorem Synced.process (hs : x.Synced waiting) (h : x.Follows me waiting) (hwire : x.wire = p :: rest) :
    x.process.Synced waiting := by
  have hp := h.sound_head hwire
  obtain ⟨hkeeps, hsnapshot, hhears⟩ := Kiosk.handle_hears hp
  rw [process_cons hwire hp]
  refine ⟨fun t ht => ?_, fun hlive => ?_⟩
  · have hall : t.hearAll (t.hear (t.read x.kiosk.directory) p) (rest ++ waiting) = t.read x.server.directory := by
      have := hs.hears t ht
      rwa [hwire] at this
    by_cases hcase : t.registryId = RegistryId.orders →
        x.kiosk.directory.Owns RegistryId.orders ∨ ∃ snapshot, p = .responseData snapshot
    · exact hhears t (h.shape ▸ ht) hcase ▸ hall
    · obtain ⟨hid, hnot⟩ := Classical.not_imp.1 hcase
      obtain ⟨hown, hother⟩ := not_or.1 hnot
      have hlive := h.shape ▸ live_of_sound hp fun snapshot heq => hother ⟨snapshot, heq⟩
      rcases hs.orders hlive with hown' | ⟨snapshot, hmem, hid'⟩
      · exact absurd hown' hown
      · rw [hwire] at hmem
        have hrest : .responseData snapshot ∈ rest ++ waiting := by
          rcases List.mem_cons.1 hmem with heq | hmem
          · exact absurd ⟨snapshot, heq.symm⟩ hother
          · exact List.mem_append_left _ hmem
        exact (t.hearAll_congr hrest (hid'.trans hid.symm) _ _).trans hall
  · rcases hs.orders hlive with hown | ⟨snapshot, hmem, hid⟩
    · exact .inl (hkeeps.owns _ hown)
    · rw [hwire] at hmem
      rcases List.mem_cons.1 hmem with heq | hmem
      · exact .inl (hid ▸ hsnapshot snapshot heq.symm)
      · exact .inr ⟨snapshot, hmem, hid⟩

end

theorem Follows.after (h : x.Follows me waiting) (m : Move me) : ∃ waiting', (x.after m).Follows me waiting' ∧
    (x.Synced waiting → (x.after m).Synced waiting') ∧
    (m = .request RegistryId.all → (x.after m).Synced waiting') := by
  cases m with
  | elsewhere m hm =>
    obtain ⟨waiting', hfollows, hsynced⟩ := h.elsewhere hm
    exact ⟨waiting', hfollows, hsynced, nofun⟩
  | request registryId =>
    obtain ⟨hfollows, hsynced⟩ := h.request registryId
    refine ⟨waiting, hfollows, hsynced, ?_⟩
    rintro ⟨⟩
    exact h.requestAll
  | forward =>
    obtain ⟨waiting', hfollows, hsynced⟩ := h.forward
    exact ⟨waiting', hfollows, hsynced, nofun⟩
  | process =>
    have hafter : x.after (.process : Move me) = x.process := rfl
    rw [hafter]
    cases hwire : x.wire with
    | nil =>
      have hprocess : x.process = x := by rw [Mirror.process, hwire]
      rw [hprocess]
      exact ⟨waiting, h, id, nofun⟩
    | cons p rest => exact ⟨waiting, h.process hwire, fun hs => hs.process h hwire, nofun⟩

/-! ## Whole runs -/

theorem Follows.run (h : x.Follows me waiting) (ms : List (Move me)) : ∃ waiting', (x.run ms).Follows me waiting' ∧
    (x.Synced waiting ∨ .request RegistryId.all ∈ ms → (x.run ms).Synced waiting') := by
  induction ms generalizing x waiting with
  | nil => exact ⟨waiting, h, fun hs => hs.resolve_right List.not_mem_nil⟩
  | cons m ms ih =>
    obtain ⟨waiting₁, hfollows₁, hkeep, hall⟩ := h.after m
    obtain ⟨waiting', hfollows, hsynced⟩ := ih hfollows₁
    refine ⟨waiting', hfollows, fun hs => hsynced ?_⟩
    rcases hs with hs | hmem
    · exact .inl (hkeep hs)
    · rcases List.mem_cons.1 hmem with heq | hmem
      · exact .inl (hall heq.symm)
      · exact .inr hmem

theorem Synced.snapshot_eq (hs : x.Synced waiting) (hf : x.Follows me waiting) (hwire : x.wire = []) (hwaiting : waiting = [])
    {r : Registry} (hr : r ∈ x.kiosk.directory.registries) :
    ∃ r', x.server.directory.get? r.id = some r' ∧ r.snapshot = r'.snapshot := by
  have hget := Directory.get?_of_mem hr
  obtain ⟨r', hget', hkind, hpolicy⟩ := Directory.exists_of_shape (hf.shape ▸ Directory.shape_of_get? hget)
  refine ⟨r', hget', ?_⟩
  have hregistry : (x.server.directory.shape r.id).isSome := by rw [Directory.shape_of_get? hget']; rfl
  have hread : ∀ elementId? : Option String, Topic.Watched x.server.directory.shape ⟨r.id, elementId?⟩ →
      Topic.excerpt ⟨r.id, elementId?⟩ r.snapshot = Topic.excerpt ⟨r.id, elementId?⟩ r'.snapshot := by
    intro elementId? ht
    have hears := hs.hears _ ht
    rwa [hwire, hwaiting, Topic.read, Topic.read, Directory.listing_of_get? hget, Directory.listing_of_get? hget'] at hears
  by_cases horders : r.id = RegistryId.orders ∧ Live x.server.directory.shape
  · obtain ⟨hid, hlive⟩ := horders
    have hown : r.Own := by
      rcases hs.orders hlive with hown | ⟨_, hmem, -⟩
      · exact hown r (hid ▸ hget)
      · rw [hwire] at hmem
        cases hmem
    have hdescending : r'.policy = .descendingOrderId := by
      have hshape := Directory.shape_of_get? (hid ▸ hget')
      exact congrArg Prod.snd (Option.some.inj (hshape.symm.trans hlive))
    exact Registry.snapshot_eq_of_listed_eq hown (hf.owns _ r' hget') (hpolicy.symm.trans hdescending) hdescending
      fun id => hread (some id) ⟨hregistry, iff_of_true rfl ⟨hid, hlive⟩⟩
  · exact hread none ⟨hregistry, iff_of_false Bool.false_ne_true horders⟩

theorem queues_run_unencrypted {s : Server} (hown : ∀ id, s.directory.Owns id) (hq : s.peers.Queues me false [])
    (during : List { m : Server.Move // m.connection ≠ me }) :
    (s.run (during.map (·.val))).peers.Queues me false [] := by
  induction during generalizing s with
  | nil => exact hq
  | cons m during ih =>
    obtain ⟨ps, hq', -⟩ := Server.after_relays m.property hown hq
    exact ih (fun id => (s.after_keeps m.val).owns id (hown id)) hq'

theorem follows_start {shop kiosk : Directory} (hown : ∀ r ∈ shop.registries, r.Own) (hshape : kiosk.shape = shop.shape)
    (me : ConnectionId) (clientId : String) (before : List Server.Move)
    (during : List { m : Server.Move // m.connection ≠ me }) :
    (start shop kiosk me clientId before during).Follows me [] := by
  have hbefore := (Server.start shop).run_keeps before
  generalize hs : (Server.start shop).run before = s at hbefore
  have hduring := (s.join me).run_keeps (during.map (·.val))
  have hkeeps : shop.Keeps ((s.join me).run (during.map (·.val))).directory := hbefore.trans hduring
  have hjoin : (s.join me).peers.Queues me false [] := s.peers.queues_insert_self me
  have howns : ∀ id, (s.join me).directory.Owns id := fun id => hbefore.owns id (Directory.owns_of_forall hown id)
  have hqueues := queues_run_unencrypted howns hjoin during
  have hstart : (start shop kiosk me clientId before during).server =
      ((s.join me).run (during.map (·.val))).welcome me clientId := by rw [← hs]; rfl
  refine ⟨?_, ?_, ?_, nofun, fun t _ => rfl⟩
  · rw [hstart]
    exact (hqueues.note_self (some clientId) false).note_self none true
  · rw [hstart]
    exact hshape.trans hkeeps.shape.symm
  · rw [hstart]
    exact fun id => hkeeps.owns id (Directory.owns_of_forall hown id)

/-- **Convergence.** A kiosk joins a server whose registries file under own ids
and have the ids, kinds and policies of its own. Others do what they like
before, during and after its handshake; the kiosk then sends requests, one of
them for everything. Whenever nothing waits for it and it has processed all
that was written, each of its registries lists what the server's lists. -/
theorem converges {shop kiosk : Directory} (hown : ∀ r ∈ shop.registries, r.Own) (hshape : kiosk.shape = shop.shape)
    (me : ConnectionId) (clientId : String) (before : List Server.Move)
    (during : List { m : Server.Move // m.connection ≠ me }) (ms : List (Move me))
    (hall : .request RegistryId.all ∈ ms) :
    let x := (start shop kiosk me clientId before during).run ms
    x.server.peers.waiting me = [] → x.wire = [] → ∀ r ∈ x.kiosk.directory.registries,
      ∃ r', x.server.directory.get? r.id = some r' ∧ r.snapshot = r'.snapshot := by
  intro x hwaiting hwire r hr
  obtain ⟨waiting, hf, hs⟩ := (follows_start hown hshape me clientId before during).run ms
  have hempty : waiting = [] := hf.queues.waiting_eq.symm.trans hwaiting
  exact (hs (.inr hall)).snapshot_eq hf hwire hempty hr

/-- Another kiosk adds a menu, and the answer to a request overtakes the
snapshot that is queued for it. -/
def overtaking : List (Move ⟨1⟩) :=
  [.elsewhere (.packet ⟨2⟩ (.dataAdded ⟨RegistryId.menus, .menu ⟨"latte", "Latte", 4500, "coffee", "", "", []⟩⟩))
      (by decide),
    .request RegistryId.all, .process, .process, .process, .process, .process, .forward, .process]

def overtaken : Mirror := (start .standard .standard ⟨1⟩ "kiosk" [.join ⟨2⟩] []).run overtaking

theorem converges_overtaking :
    overtaken.server.peers.waiting ⟨1⟩ = [] ∧ overtaken.wire = [] ∧ ∀ r ∈ overtaken.kiosk.directory.registries,
      ∃ r', overtaken.server.directory.get? r.id = some r' ∧ r.snapshot = r'.snapshot := by
  have hown : ∀ r ∈ Directory.standard.registries, r.Own := by
    intro r hr
    simp only [Directory.standard, List.mem_cons, List.not_mem_nil, or_false] at hr
    rcases hr with rfl | rfl | rfl | rfl | rfl <;> exact Registry.own_standard _ _
  have hall : .request RegistryId.all ∈ overtaking := List.mem_cons_of_mem _ List.mem_cons_self
  have hwaiting : overtaken.server.peers.waiting ⟨1⟩ = [] := by decide +kernel
  have hwire : overtaken.wire = [] := by decide +kernel
  exact ⟨hwaiting, hwire, converges hown rfl ⟨1⟩ "kiosk" [.join ⟨2⟩] [] overtaking hall hwaiting hwire⟩

end Mirror

end OrderDesk
