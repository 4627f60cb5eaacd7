import Mathlib.Logic.Function.Basic
import OrderDesk.Proofs.Mirror.Topics
import OrderDesk.Proofs.Mirror.Tracks
import OrderDesk.Proofs.Server.OrderIds

/-!
# The last write

Kiosks submit new versions of numbered orders while the versions of others are
on their way to them. The server takes two steps over a submission, each under a
lock of its own: it stores the version, and then it tells every kiosk but the
one it has it from. Each connection is served by itself, so what is done for the
others may come between the two steps.

The version that is stored last is kept. If a kiosk has it from the server, then
it ends up with the version that it was told last, and that is the one that is
kept unless the server told of its versions in another order than it stored
them. The kiosk that it came from has it last as well, unless versions that were
stored before it crossed it on the way. Main result: `last_write`.
-/

namespace OrderDesk

/-! ## The server and its kiosks -/

/-- The first of the two steps over a numbered order: it is stored, and nobody
has been told of it. The counter and the events, which no step over another
order reads, go with it. -/
def Server.keep? (s : Server) (o : Order) : Option Server := do
  let orders ← s.directory.orders?
  let r ← (orders.upsertEntity (.order o)).toOption
  return { s.numberAbove o.orderId with directory := s.directory.set r }.publish (.orderChanged o)

structure Exchange where
  server : Server
  line : ConnectionId → Line
  /-- The versions that the server stored so far, with the kiosks that submitted
  them. -/
  stored : List Submission
  /-- Those of them that it told the other kiosks of. -/
  announced : List Submission
  /-- Those that it has yet to tell them of, one for a connection at most. -/
  pending : List Submission

namespace Exchange

inductive Move
  | submit (c : ConnectionId) (o : Order) (ho : ¬o.isUnassigned)
  | store (c : ConnectionId)
  | announce (c : ConnectionId)
  | forward (c : ConnectionId)
  | receive (c : ConnectionId)

def setLine (x : Exchange) (c : ConnectionId) (l : Line) : Exchange := { x with line := Function.update x.line c l }

/-- What a connection is in the middle of, if it is in the middle of a
submission. It does nothing else then. -/
def handling? (x : Exchange) (c : ConnectionId) : Option Submission := x.pending.find? (·.1 = c)

def submit (x : Exchange) (c : ConnectionId) (o : Order) : Exchange :=
  let l := x.line c
  x.setLine c { l with outgoing := l.outgoing ++ [o], log := l.log ++ [.sent o] }

def store (x : Exchange) (c : ConnectionId) : Exchange :=
  let l := x.line c
  match x.handling? c, l.outgoing with
  | none, o :: rest =>
    let l := { l with outgoing := rest }
    match x.server.keep? o with
    | none => x.setLine c l
    | some server =>
      { x with server, stored := x.stored ++ [(c, o)], pending := x.pending ++ [(c, o)] }.setLine c l
  | _, _ => x

def announce (x : Exchange) (c : ConnectionId) : Exchange :=
  match x.handling? c with
  | none => x
  | some s =>
    { x with
      server := x.server.broadcast (.orderUpdated ⟨s.2⟩) (some s.1)
      announced := x.announced ++ [s]
      pending := x.pending.erase s }

def forward (x : Exchange) (c : ConnectionId) : Exchange :=
  match x.handling? c with
  | some _ => x
  | none =>
    let l := x.line c
    let (server, ps) := x.server.forward c
    { x with server }.setLine c { l with incoming := l.incoming ++ ps }

def receive (x : Exchange) (c : ConnectionId) : Exchange :=
  let l := x.line c
  match l.incoming with
  | [] => x
  | p :: rest => x.setLine c { l with incoming := rest, log := l.log ++ p.told?.toList.map .received }

def after (x : Exchange) : Move → Exchange
  | .submit c o _ => x.submit c o
  | .store c => x.store c
  | .announce c => x.announce c
  | .forward c => x.forward c
  | .receive c => x.receive c

def run (x : Exchange) (ms : List Move) : Exchange := ms.foldl after x

/-- In a run the server is over with each submission before it turns to
anything else. -/
inductive OneByOne : List Move → Prop
  | nil : OneByOne []
  | submit (c : ConnectionId) (o : Order) (ho : ¬o.isUnassigned) {ms : List Move} (h : OneByOne ms) :
    OneByOne (.submit c o ho :: ms)
  | handle (c : ConnectionId) {ms : List Move} (h : OneByOne ms) : OneByOne (.store c :: .announce c :: ms)
  | forward (c : ConnectionId) {ms : List Move} (h : OneByOne ms) : OneByOne (.forward c :: ms)
  | receive (c : ConnectionId) {ms : List Move} (h : OneByOne ms) : OneByOne (.receive c :: ms)

/-- The server told of the versions of an order in the order in which it stored
them. -/
def InOrder (x : Exchange) (n : Int64) : Prop := submissionsOf n x.announced = submissionsOf n x.stored

/-- Kiosks join a server that has been running, and finish their handshakes. -/
def start (shop : Directory) (before : List Server.Move) (kiosks : List ConnectionId)
    (clientId : ConnectionId → String) : Exchange where
  server := ((Server.start shop).run before).run (kiosks.flatMap fun c => [.join c, .welcome c (clientId c)])
  line _ := ⟨[], [], []⟩
  stored := []
  announced := []
  pending := []

/-- The server is in the middle of nothing, and nothing is queued for the kiosks
or on its way. -/
def Drained (x : Exchange) (kiosks : List ConnectionId) : Prop :=
  x.pending = [] ∧
    ∀ c ∈ kiosks, (x.line c).outgoing = [] ∧ (x.line c).incoming = [] ∧ x.server.peers.waiting c = []

end Exchange

/-! ## The server keeps the last version -/

namespace Server

variable {s s' : Server} {orders : Registry} {e : Element orders.kind} {o o' : Order}

theorem keep?_of_orders (hr : s.directory.orders? = some orders) (o : Order) :
    ∃ e : Element orders.kind, e.entity = .order o ∧
      let kept := { s.numberAbove o.orderId with directory := s.directory.set (orders.upsert e) }
      s.keep? o = some (kept.publish (.orderChanged o)) := by
  obtain ⟨e, he, hupsert⟩ := Registry.exists_upsertEntity_order (Directory.orders?_eq_some_iff.1 hr).2.1 o
  exact ⟨e, he, by simp [keep?, hr, hupsert, Except.toOption]⟩

/-- The two steps over a numbered order, one right after the other, are what the
server does with the packet. -/
theorem dispatch_submission (s : Server) (c : ConnectionId) (ho : ¬o.isUnassigned) :
    s.dispatch c (submission o) = ((s.keep? o).elim s (·.broadcast (.orderUpdated ⟨o⟩) (some c)), []) := by
  have hkind : (submission o).kind.isAcceptedBy .server = true := rfl
  have hhandle : s.handle c (submission o) = s.takeOrder c o := rfl
  rw [dispatch, if_pos hkind, hhandle, takeOrder]
  cases hr : s.directory.orders? with
  | none => simp [keep?, hr, refuse, Except.toOption]
  | some orders =>
    obtain ⟨e, -, hupsert⟩ := Registry.exists_upsertEntity_order (Directory.orders?_eq_some_iff.1 hr).2.1 o
    simp [keep?, hr, hupsert, ho, storeOrder, Except.toOption, numberAbove]

/-- The order is the one version that is listed under its number. -/
def Stores (s : Server) (o : Order) : Prop := s.Lists o ∧ ∀ o', s.Lists o' → o'.orderId = o.orderId → o' = o

theorem lists_kept (hr : s.directory.orders? = some orders) (hown : orders.Own) (he : e.entity = .order o)
    (hd : s'.directory = s.directory.set (orders.upsert e)) (o' : Order) :
    s'.Lists o' ↔ o' = o ∨ s.Lists o' ∧ o'.orderId ≠ o.orderId := by
  rw [Lists, hd]
  exact lists_upsert hr hown he o'

theorem stores_kept (hr : s.directory.orders? = some orders) (hown : orders.Own) (he : e.entity = .order o)
    (hd : s'.directory = s.directory.set (orders.upsert e)) : s'.Stores o := by
  have hlists := lists_kept hr hown he hd
  refine ⟨(hlists o).2 (.inl rfl), fun o' ho' hid => ?_⟩
  exact ((hlists o').1 ho').resolve_right fun h => h.2 hid

theorem Stores.kept (h : s.Stores o') (hr : s.directory.orders? = some orders) (hown : orders.Own)
    (he : e.entity = .order o) (hd : s'.directory = s.directory.set (orders.upsert e)) (hne : o'.orderId ≠ o.orderId) :
    s'.Stores o' := by
  have hlists := lists_kept hr hown he hd
  refine ⟨(hlists o').2 (.inr ⟨h.1, hne⟩), fun o'' ho'' hid => ?_⟩
  rcases (hlists o'').1 ho'' with rfl | ⟨ho'', -⟩
  · exact absurd hid.symm hne
  · exact h.2 o'' ho'' hid

end Server

namespace Exchange

variable {me : ConnectionId} {x : Exchange} {waiting : List Packet}

def Numbered (x : Exchange) : Prop := ∀ c, ∀ o ∈ (x.line c).outgoing, ¬o.isUnassigned

/-- The server lists orders under own ids, and the last version of each that it
stored is the one that it keeps. -/
structure Sound (x : Exchange) : Prop where
  live : Live x.server.directory.shape
  owns : x.server.directory.Owns RegistryId.orders
  numbered : x.Numbered
  stored : ∀ n c o, (submissionsOf n x.stored).getLast? = some (c, o) → x.server.Stores o

/-- The server knows the kiosk, for which this waits; every order is on its
track. -/
structure Follows (me : ConnectionId) (x : Exchange) (waiting : List Packet) : Prop where
  queues : x.server.peers.Queues me true waiting
  track : ∀ n, (x.line me).OnTrack me waiting x.stored x.announced x.pending n

theorem Sound.exists_orders (h : x.Sound) : ∃ orders, x.server.directory.orders? = some orders ∧ orders.Own := by
  obtain ⟨orders, hr⟩ := Directory.live_iff.1 h.live
  exact ⟨orders, hr, h.owns orders (Directory.orders?_eq_some_iff.1 hr).1⟩

theorem line_setLine (x : Exchange) (c : ConnectionId) (l : Line) (c' : ConnectionId) :
    (x.setLine c l).line c' = if c' = c then l else x.line c' :=
  Function.update_apply x.line c l c'

theorem Numbered.setLine (h : x.Numbered) (c : ConnectionId) {l : Line} (hl : ∀ o ∈ l.outgoing, ¬o.isUnassigned) :
    (x.setLine c l).Numbered := by
  intro c' o ho
  rw [line_setLine] at ho
  split at ho
  · exact hl o ho
  · exact h c' o ho

theorem of_handling? {c : ConnectionId} {s : Submission} (h : x.handling? c = some s) :
    s.1 = c ∧ s ∈ x.pending := by
  unfold handling? at h
  exact ⟨by simpa using List.find?_some h, List.mem_of_find?_eq_some h⟩

/-! ## A submission -/

theorem Sound.submit (h : x.Sound) (c : ConnectionId) {o : Order} (ho : ¬o.isUnassigned) : (x.submit c o).Sound := by
  refine ⟨h.live, h.owns, h.numbered.setLine c fun o' ho' => ?_, h.stored⟩
  rcases List.mem_append.1 ho' with ho' | ho'
  · exact h.numbered c o' ho'
  · rwa [List.mem_singleton.1 ho']

theorem Follows.submit (h : x.Follows me waiting) (c : ConnectionId) (o : Order) :
    (x.submit c o).Follows me waiting := by
  refine ⟨h.queues, fun n => ?_⟩
  rw [Exchange.submit, line_setLine]
  split
  · next hc =>
    subst hc
    exact (h.track n).submit o
  · exact h.track n

/-! ## The first step -/

section
variable {c : ConnectionId} {o : Order} {rest : List Order} {server : Server}

theorem store_of_outgoing_nil (hout : (x.line c).outgoing = []) : x.store c = x := by
  cases hs : x.handling? c <;> simp only [Exchange.store, hs, hout]

theorem store_of_handling {s : Submission} (hs : x.handling? c = some s) : x.store c = x := by
  simp only [Exchange.store, hs]

theorem store_refused (hnone : x.handling? c = none) (hout : (x.line c).outgoing = o :: rest)
    (hkeep : x.server.keep? o = none) : x.store c = x.setLine c { x.line c with outgoing := rest } := by
  simp only [Exchange.store, hnone, hout, hkeep]

theorem store_kept (hnone : x.handling? c = none) (hout : (x.line c).outgoing = o :: rest)
    (hkeep : x.server.keep? o = some server) :
    x.store c = setLine ⟨server, x.line, x.stored ++ [(c, o)], x.announced, x.pending ++ [(c, o)]⟩ c
      { x.line c with outgoing := rest } := by
  simp only [Exchange.store, hnone, hout, hkeep]

end

/-- A connection stores the first version that came over it, or does nothing. -/
inductive Stored (x : Exchange) (c : ConnectionId) : Exchange → Prop
  | nothing : Stored x c x
  | kept (server : Server) (orders : Registry) (e : Element orders.kind) (o : Order) (rest : List Order)
    (hout : (x.line c).outgoing = o :: rest) (hr : x.server.directory.orders? = some orders) (hown : orders.Own)
    (he : e.entity = .order o) (hd : server.directory = x.server.directory.set (orders.upsert e))
    (hpeers : server.peers = x.server.peers) :
    Stored x c (setLine ⟨server, x.line, x.stored ++ [(c, o)], x.announced, x.pending ++ [(c, o)]⟩ c
      { x.line c with outgoing := rest })

theorem Sound.stored_store (h : x.Sound) (c : ConnectionId) : Stored x c (x.store c) := by
  cases hs : x.handling? c with
  | some s =>
    rw [store_of_handling hs]
    exact .nothing
  | none =>
    cases hout : (x.line c).outgoing with
    | nil =>
      rw [store_of_outgoing_nil hout]
      exact .nothing
    | cons o rest =>
      obtain ⟨orders, hr, hown⟩ := h.exists_orders
      obtain ⟨e, he, hkeep⟩ := Server.keep?_of_orders hr o
      rw [store_kept hs hout hkeep]
      exact .kept _ orders e o rest hout hr hown he rfl rfl

theorem Sound.store (h : x.Sound) (c : ConnectionId) : (x.store c).Sound := by
  have hstored := h.stored_store c
  generalize x.store c = x' at hstored
  cases hstored with
  | nothing => exact h
  | kept server orders e o rest hout hr hown he hd hpeers =>
    have hkeeps : x.server.directory.Keeps server.directory :=
      hd ▸ Directory.keeps_set_upsert (Directory.get?_self (Directory.orders?_eq_some_iff.1 hr).1) e
    have hrest : ∀ o' ∈ rest, ¬o'.isUnassigned := fun o' ho' => h.numbered c o' (by simp [hout, ho'])
    refine ⟨hkeeps.shape ▸ h.live, hkeeps.owns _ h.owns, h.numbered.setLine c hrest, fun n c' o' hlast => ?_⟩
    change (submissionsOf n (x.stored ++ [(c, o)])).getLast? = _ at hlast
    rw [submissionsOf_concat] at hlast
    split at hlast
    · rw [List.getLast?_concat] at hlast
      cases hlast
      exact Server.stores_kept hr hown he hd
    · next hn =>
      have hid : o'.orderId ≠ o.orderId := fun heq => hn (heq.symm.trans (orderId_of_getLast? hlast))
      exact (h.stored n c' o' hlast).kept hr hown he hd hid

theorem Follows.store (h : x.Follows me waiting) (hsound : x.Sound) (c : ConnectionId) :
    (x.store c).Follows me waiting := by
  have hstored := hsound.stored_store c
  generalize x.store c = x' at hstored
  cases hstored with
  | nothing => exact h
  | kept server orders e o rest hout hr hown he hd hpeers =>
    refine ⟨hpeers ▸ h.queues, fun n => ?_⟩
    rw [line_setLine]
    split
    · next hc =>
      subst hc
      exact (h.track n).storeOwn hout
    · next hc => exact (h.track n).store (Ne.symm hc) o

/-! ## The second step -/

theorem announce_idle {c : ConnectionId} (hnone : x.handling? c = none) : x.announce c = x := by
  unfold Exchange.announce
  rw [hnone]

theorem announce_cases (x : Exchange) (c : ConnectionId) :
    x.announce c = x ∨ ∃ o, (c, o) ∈ x.pending ∧ x.announce c =
      ⟨x.server.broadcast (.orderUpdated ⟨o⟩) (some c), x.line, x.stored, x.announced ++ [(c, o)],
        x.pending.erase (c, o)⟩ := by
  unfold Exchange.announce
  split
  · exact .inl rfl
  · next s hs =>
    obtain ⟨rfl, hmem⟩ := of_handling? hs
    exact .inr ⟨s.2, hmem, rfl⟩

theorem Sound.announce (h : x.Sound) (c : ConnectionId) : (x.announce c).Sound := by
  obtain heq | ⟨o, -, heq⟩ := announce_cases x c
  · rwa [heq]
  · rw [heq]
    exact ⟨h.live, h.owns, h.numbered, h.stored⟩

theorem Follows.announce (h : x.Follows me waiting) (c : ConnectionId) :
    ∃ waiting', (x.announce c).Follows me waiting' := by
  obtain heq | ⟨o, hmem, heq⟩ := announce_cases x c
  · rw [heq]
    exact ⟨waiting, h⟩
  · rw [heq]
    by_cases hc : c = me
    · subst hc
      exact ⟨waiting, h.queues.broadcast_self _, fun n => (h.track n).announceOwn hmem⟩
    · have hqueues := h.queues.broadcast (.orderUpdated ⟨o⟩) fun heq => hc (Option.some.inj heq)
      rw [if_pos rfl] at hqueues
      exact ⟨waiting ++ [Packet.orderUpdated ⟨o⟩], hqueues, fun n => (h.track n).announce hc hmem⟩

/-! ## A delivery -/

theorem forward_cases (x : Exchange) (c : ConnectionId) :
    x.forward c = x ∨ ∃ peer p peers, x.server.peers.get? c = some peer ∧
      x.server.peers.take? peer.mailbox = some (p, peers) ∧
      x.forward c = setLine { x with server := { x.server with peers } } c
        { x.line c with incoming := (x.line c).incoming ++ [p] } := by
  unfold Exchange.forward Server.forward
  split
  · exact .inl rfl
  · cases htake : (x.server.peers.get? c).bind fun peer => x.server.peers.take? peer.mailbox with
    | none =>
      left
      simp [setLine]
    | some taken =>
      obtain ⟨peer, hpeer, htake⟩ := Option.bind_eq_some_iff.1 htake
      exact .inr ⟨peer, taken.1, taken.2, hpeer, htake, rfl⟩

theorem Sound.forward (h : x.Sound) (c : ConnectionId) : (x.forward c).Sound := by
  obtain heq | ⟨peer, p, peers, -, -, heq⟩ := forward_cases x c
  · rwa [heq]
  · rw [heq]
    exact ⟨h.live, h.owns, h.numbered.setLine c (h.numbered c), h.stored⟩

theorem Follows.forward (h : x.Follows me waiting) (c : ConnectionId) :
    ∃ waiting', (x.forward c).Follows me waiting' := by
  obtain heq | ⟨peer, p, peers, hpeer, htake, heq⟩ := forward_cases x c
  · rw [heq]
    exact ⟨waiting, h⟩
  · rw [heq]
    by_cases hc : c = me
    · subst hc
      cases waiting with
      | nil => cases (h.queues.take?_nil hpeer).symm.trans htake
      | cons p' rest =>
        obtain ⟨peers', htake', hrest⟩ := h.queues.take?_cons hpeer
        cases htake'.symm.trans htake
        refine ⟨rest, hrest, fun n => ?_⟩
        rw [line_setLine, if_pos rfl]
        exact (h.track n).forward
    · have hrest := h.queues.take?_of_ne (fun p' hp' => PeerTable.mailbox_ne hp' hpeer hc) htake
      refine ⟨waiting, hrest, fun n => ?_⟩
      rw [line_setLine, if_neg (Ne.symm hc)]
      exact h.track n

theorem receive_cases (x : Exchange) (c : ConnectionId) :
    x.receive c = x ∨ ∃ p rest, (x.line c).incoming = p :: rest ∧ x.receive c = x.setLine c
      { x.line c with incoming := rest, log := (x.line c).log ++ p.told?.toList.map .received } := by
  unfold Exchange.receive
  dsimp only
  split
  · exact .inl rfl
  · next p rest hin => exact .inr ⟨p, rest, hin, rfl⟩

theorem Sound.receive (h : x.Sound) (c : ConnectionId) : (x.receive c).Sound := by
  obtain heq | ⟨p, rest, -, heq⟩ := receive_cases x c
  · rwa [heq]
  · rw [heq]
    exact ⟨h.live, h.owns, h.numbered.setLine c (h.numbered c), h.stored⟩

theorem Follows.receive (h : x.Follows me waiting) (c : ConnectionId) : (x.receive c).Follows me waiting := by
  obtain heq | ⟨p, rest, hin, heq⟩ := receive_cases x c
  · rwa [heq]
  · rw [heq]
    refine ⟨h.queues, fun n => ?_⟩
    rw [line_setLine]
    split
    · next hc =>
      subst hc
      exact (h.track n).receive hin
    · exact h.track n

/-! ## Whole runs -/

theorem Sound.after (h : x.Sound) (m : Move) : (x.after m).Sound := by
  cases m with
  | submit c o ho => exact h.submit c ho
  | store c => exact h.store c
  | announce c => exact h.announce c
  | forward c => exact h.forward c
  | receive c => exact h.receive c

theorem Follows.after (h : x.Follows me waiting) (hsound : x.Sound) (m : Move) :
    ∃ waiting', (x.after m).Follows me waiting' := by
  cases m with
  | submit c o => exact ⟨waiting, h.submit c o⟩
  | store c => exact ⟨waiting, h.store hsound c⟩
  | announce c => exact h.announce c
  | forward c => exact h.forward c
  | receive c => exact ⟨waiting, h.receive c⟩

theorem Sound.run (h : x.Sound) (ms : List Move) : (x.run ms).Sound := by
  induction ms generalizing x with
  | nil => exact h
  | cons m ms ih => exact ih (h.after m)

theorem Follows.run (h : x.Follows me waiting) (hsound : x.Sound) (ms : List Move) :
    ∃ waiting', (x.run ms).Follows me waiting' := by
  induction ms generalizing x waiting with
  | nil => exact ⟨waiting, h⟩
  | cons m ms ih =>
    obtain ⟨waiting', h'⟩ := h.after hsound m
    exact ih h' (hsound.after m)

theorem queues_admitted {s : Server} (clientId : ConnectionId → String) {kiosks : List ConnectionId}
    (h : me ∈ kiosks ∨ s.peers.Queues me true []) :
    (s.run (kiosks.flatMap fun c => [.join c, .welcome c (clientId c)])).peers.Queues me true [] := by
  induction kiosks generalizing s with
  | nil => exact h.resolve_left List.not_mem_nil
  | cons c kiosks ih =>
    refine ih (s := (s.join c).welcome c (clientId c)) ?_
    by_cases hc : c = me
    · subst hc
      have hjoined := (s.peers.queues_insert_self c).note_self (some (clientId c)) false
      exact .inr (hjoined.note_self none true)
    · rcases h with hmem | hq
      · exact .inl ((List.mem_cons.1 hmem).resolve_left (Ne.symm hc))
      · exact .inr (((hq.insert hc).note hc (some (clientId c)) false).note hc none true)

theorem sound_start {shop : Directory} (hlive : Live shop.shape) (hown : ∀ r ∈ shop.registries, r.Own)
    (before : List Server.Move) (kiosks : List ConnectionId) (clientId : ConnectionId → String) :
    (start shop before kiosks clientId).Sound := by
  have hkeeps : shop.Keeps (start shop before kiosks clientId).server.directory :=
    ((Server.start shop).run_keeps before).trans (Server.run_keeps _ _)
  exact ⟨hkeeps.shape ▸ hlive, hkeeps.owns _ (Directory.owns_of_forall hown _), nofun, nofun⟩

theorem follows_start (shop : Directory) (before : List Server.Move) {kiosks : List ConnectionId}
    (clientId : ConnectionId → String) (hme : me ∈ kiosks) : (start shop before kiosks clientId).Follows me [] :=
  ⟨queues_admitted clientId (.inl hme), fun _ => Track.start me⟩

/-! ## One submission at a time -/

theorem announce_kept {c : ConnectionId} (hnone : x.handling? c = none) (server : Server) (o : Order) (l : Line) :
    (setLine ⟨server, x.line, x.stored ++ [(c, o)], x.announced, x.pending ++ [(c, o)]⟩ c l).announce c =
      setLine ⟨server.broadcast (.orderUpdated ⟨o⟩) (some c), x.line, x.stored ++ [(c, o)], x.announced ++ [(c, o)],
        (x.pending ++ [(c, o)]).erase (c, o)⟩ c l := by
  have hfound : (x.pending ++ [(c, o)]).find? (fun s => decide (s.1 = c)) = some (c, o) := by
    have hnone' : x.pending.find? (fun s => decide (s.1 = c)) = none := hnone
    simp [List.find?_append, hnone']
  simp only [Exchange.announce, handling?, setLine, hfound]

/-- The two steps over a submission, one right after the other, are what the
server does with the packet. -/
theorem dispatch_next (h : x.Sound) {c : ConnectionId} {o : Order} {rest : List Order} (hnone : x.handling? c = none)
    (hout : (x.line c).outgoing = o :: rest) :
    x.server.dispatch c (Server.submission o) = (((x.store c).announce c).server, []) := by
  have ho : ¬o.isUnassigned := h.numbered c o (by simp [hout])
  rw [x.server.dispatch_submission c ho]
  cases hkeep : x.server.keep? o with
  | none =>
    rw [store_refused hnone hout hkeep, announce_idle (x := x.setLine c _) hnone]
    rfl
  | some server =>
    rw [store_kept hnone hout hkeep, announce_kept hnone]
    rfl

/-- The server is in the middle of nothing, and told of all that it stored in
that order. -/
structure CaughtUp (x : Exchange) : Prop where
  idle : x.pending = []
  even : x.announced = x.stored

theorem CaughtUp.handle (h : x.CaughtUp) (c : ConnectionId) : ((x.store c).announce c).CaughtUp := by
  have hnone : x.handling? c = none := by rw [handling?, h.idle, List.find?_nil]
  cases hout : (x.line c).outgoing with
  | nil => rwa [store_of_outgoing_nil hout, announce_idle hnone]
  | cons o rest =>
    cases hkeep : x.server.keep? o with
    | none =>
      rw [store_refused hnone hout hkeep, announce_idle (x := x.setLine c _) hnone]
      exact ⟨h.idle, h.even⟩
    | some server =>
      rw [store_kept hnone hout hkeep, announce_kept hnone]
      refine ⟨?_, congrArg (· ++ [(c, o)]) h.even⟩
      change (x.pending ++ [(c, o)]).erase (c, o) = []
      simp [h.idle]

theorem CaughtUp.forward (h : x.CaughtUp) (c : ConnectionId) : (x.forward c).CaughtUp := by
  obtain heq | ⟨peer, p, peers, -, -, heq⟩ := forward_cases x c
  · rwa [heq]
  · rw [heq]
    exact ⟨h.idle, h.even⟩

theorem CaughtUp.receive (h : x.CaughtUp) (c : ConnectionId) : (x.receive c).CaughtUp := by
  obtain heq | ⟨p, rest, -, heq⟩ := receive_cases x c
  · rwa [heq]
  · rw [heq]
    exact ⟨h.idle, h.even⟩

theorem CaughtUp.run {ms : List Move} (h : x.CaughtUp) (hms : OneByOne ms) : (x.run ms).CaughtUp := by
  induction hms generalizing x with
  | nil => exact h
  | submit c o ho _ ih => exact ih (x := x.submit c o) ⟨h.idle, h.even⟩
  | handle c _ ih => exact ih (h.handle c)
  | forward c _ ih => exact ih (h.forward c)
  | receive c _ ih => exact ih (h.receive c)

/-! ## Main result -/

/-- **The last write.** Kiosks submit numbered orders, and whatever is on its way
between them and the server is delivered in any interleaving. The two steps that
the server takes over a submission stand apart in it; one right after the other
they are what it does with the packet. If it takes on one submission at a time,
then it tells of the versions in the order in which it stores them.

Once nothing is on its way, take an order that a kiosk has sent or received. The
server keeps the version that it stored last, and it told of every version that
it stored. If another kiosk submitted the version that is kept, the kiosk has
last what it was told last, and that is this version, too, if the server told of
the versions in order. If the version is the kiosk's own, then what the kiosk
received after it was stored before it. -/
theorem last_write {shop : Directory} (hlive : Live shop.shape) (hown : ∀ r ∈ shop.registries, r.Own)
    (before : List Server.Move) (kiosks : List ConnectionId) (clientId : ConnectionId → String) (ms : List Move) :
    let x := (start shop before kiosks clientId).run ms
    (∀ c o rest, x.handling? c = none → (x.line c).outgoing = o :: rest →
      x.server.dispatch c (Server.submission o) = (((x.store c).announce c).server, [])) ∧
    (OneByOne ms → ∀ n, x.InOrder n) ∧
    (x.Drained kiosks → ∀ me ∈ kiosks, ∀ n, (x.line me).logOf n ≠ [] →
      ∃ earlier c o, submissionsOf n x.stored = earlier ++ [(c, o)] ∧ x.server.Stores o ∧
        (submissionsOf n x.announced).Perm (submissionsOf n x.stored) ∧
        (c ≠ me → (x.line me).latest? n = (othersOf me (submissionsOf n x.announced)).getLast? ∧
          (x.InOrder n → (x.line me).latest? n = some o)) ∧
        (c = me → ∃ (pre : List Entry) (crossed : List Order),
          (x.line me).logOf n = pre ++ .sent o :: crossed.map .received ∧
            ∀ o' ∈ crossed, ∃ c', c' ≠ me ∧ (c', o') ∈ earlier)) := by
  intro x
  have hstart := sound_start hlive hown before kiosks clientId
  refine ⟨fun c o rest hnone hout => dispatch_next (hstart.run ms) hnone hout,
    fun hms n => congrArg (submissionsOf n) (CaughtUp.run ⟨rfl, rfl⟩ hms).even, ?_⟩
  rintro ⟨hidle, hempty⟩ me hme n hlog
  obtain ⟨waiting, hfollows⟩ := (follows_start shop before clientId hme).run hstart ms
  obtain ⟨hout, hin, hwaiting⟩ := hempty me hme
  have hnone : waiting = [] := hfollows.queues.waiting_eq.symm.trans hwaiting
  have htrack : Track me ((x.line me).logOf n) [] [] (submissionsOf n x.stored) (submissionsOf n x.announced) [] := by
    have htrack := hfollows.track n
    rwa [Line.OnTrack, hout, hin, hnone, hidle] at htrack
  obtain ⟨earlier, c, o, hstored⟩ := htrack.exists_stored hlog
  have hlast : (submissionsOf n x.stored).getLast? = some (c, o) := by rw [hstored, List.getLast?_concat]
  have hsplit := htrack.split
  rw [List.append_nil] at hsplit
  refine ⟨earlier, c, o, hstored, (hstart.run ms).stored n c o hlast, hsplit.symm, fun hc => ?_, ?_⟩
  · have htold := htrack.latest_of_other hlast hc
    refine ⟨htold, fun horder => htold.trans ?_⟩
    rw [horder, hstored, othersOf_concat_other hc, List.getLast?_concat]
  · rintro rfl
    rw [hstored] at htrack
    exact htrack.crossed_of_own

/-- The last version of an order that a kiosk has is the one that the server
keeps. -/
def Agrees (x : Exchange) (me : ConnectionId) (n : Int64) : Prop :=
  ∃ o, (x.line me).latest? n = some o ∧ x.server.Stores o

theorem Sound.not_agrees (h : x.Sound) {n : Int64} {c : ConnectionId} {o o' : Order}
    (hlast : (submissionsOf n x.stored).getLast? = some (c, o)) (hlatest : (x.line me).latest? n = some o')
    (hid : o'.orderId = o.orderId) (hne : o' ≠ o) : ¬x.Agrees me n := by
  rintro ⟨o'', hlatest', hstores⟩
  cases hlatest.symm.trans hlatest'
  exact hne ((h.stored n c o hlast).2 o' hstores.1 hid)

def version (status : OrderStatus) : Order := { Order.checkout "Ada" 0 .empty with orderId := 5, status }

/-- Two kiosks submit a version each. The second sends its own while the other
is queued for it. -/
def crossing : List Move :=
  [.submit ⟨1⟩ (version .accepted) (by decide), .store ⟨1⟩, .announce ⟨1⟩,
    .submit ⟨2⟩ (version .canceled) (by decide), .store ⟨2⟩, .announce ⟨2⟩, .forward ⟨1⟩, .receive ⟨1⟩, .forward ⟨2⟩,
    .receive ⟨2⟩]

theorem oneByOne_crossing : OneByOne crossing :=
  .submit _ _ _ (.handle _ (.submit _ _ _ (.handle _ (.forward _ (.receive _ (.forward _ (.receive _ .nil)))))))

/-- Two kiosks submit a version each, and the server tells of the second before
it tells of the first, also to a third. -/
def overtaking : List Move :=
  [.submit ⟨1⟩ (version .accepted) (by decide), .submit ⟨2⟩ (version .canceled) (by decide), .store ⟨1⟩, .store ⟨2⟩,
    .announce ⟨2⟩, .announce ⟨1⟩, .forward ⟨1⟩, .receive ⟨1⟩, .forward ⟨2⟩, .receive ⟨2⟩, .forward ⟨3⟩, .receive ⟨3⟩,
    .forward ⟨3⟩, .receive ⟨3⟩]

def crossed : Exchange := (start .standard [] [⟨1⟩, ⟨2⟩] fun _ => "kiosk").run crossing

def overtaken : Exchange := (start .standard [] [⟨1⟩, ⟨2⟩, ⟨3⟩] fun _ => "kiosk").run overtaking

theorem live_standard : Live Directory.standard.shape := rfl

theorem drained_crossed : crossed.Drained [⟨1⟩, ⟨2⟩] := by
  unfold Drained
  decide +kernel

theorem submissionsOf_crossed :
    submissionsOf 5 crossed.stored = [(⟨1⟩, version .accepted), (⟨2⟩, version .canceled)] := by
  decide +kernel

/-- The kiosk whose version was stored first ends up with the other's. -/
theorem last_write_crossed :
    Live Directory.standard.shape ∧ (∀ r ∈ Directory.standard.registries, r.Own) ∧ OneByOne crossing ∧
      crossed.Drained [⟨1⟩, ⟨2⟩] ∧ (crossed.line ⟨1⟩).latest? 5 = some (version .canceled) ∧
      crossed.server.Stores (version .canceled) := by
  have hlog : (crossed.line ⟨1⟩).logOf 5 ≠ [] := by decide +kernel
  obtain ⟨-, horder, hdrained⟩ :=
    last_write live_standard Directory.own_standard [] [⟨1⟩, ⟨2⟩] (fun _ => "kiosk") crossing
  obtain ⟨earlier, c, o, hstored, hstores, -, hother, -⟩ := hdrained drained_crossed ⟨1⟩ (by decide) 5 hlog
  have hlast := congrArg List.getLast? (hstored.symm.trans submissionsOf_crossed)
  rw [List.getLast?_concat] at hlast
  cases hlast
  have hlatest := (hother (by decide)).2 (horder oneByOne_crossing 5)
  exact ⟨live_standard, Directory.own_standard, oneByOne_crossing, drained_crossed, hlatest, hstores⟩

/-- Two ways to stay apart. The server takes on one submission at a time, and the
kiosk that sent the version that is kept has the other's last, which was stored
before. Or a kiosk sends nothing, and is told of the versions in another order
than they are stored. -/
theorem last_write_apart :
    (¬ ∀ ms : List Move, OneByOne ms →
      let x := (start .standard [] [⟨1⟩, ⟨2⟩] fun _ => "kiosk").run ms
      x.Drained [⟨1⟩, ⟨2⟩] → ∀ me ∈ [⟨1⟩, ⟨2⟩], ∀ n, (x.line me).logOf n ≠ [] → x.Agrees me n) ∧
    ¬ ∀ ms : List Move,
      let x := (start .standard [] [⟨1⟩, ⟨2⟩, ⟨3⟩] fun _ => "kiosk").run ms
      x.Drained [⟨1⟩, ⟨2⟩, ⟨3⟩] → ∀ me ∈ [⟨1⟩, ⟨2⟩, ⟨3⟩], ∀ n, (x.line me).logOf n ≠ [] →
        ((x.line me).logOf n).filterMap Entry.sent? = [] → x.Agrees me n := by
  have hsound (kiosks : List ConnectionId) (ms : List Move) :
      ((start .standard [] kiosks fun _ => "kiosk").run ms).Sound :=
    (sound_start live_standard Directory.own_standard [] kiosks fun _ => "kiosk").run ms
  constructor
  · intro h
    have hlatest : (crossed.line ⟨2⟩).latest? 5 = some (version .accepted) := by decide +kernel
    have hlast : (submissionsOf 5 crossed.stored).getLast? = some (⟨2⟩, version .canceled) :=
      congrArg List.getLast? submissionsOf_crossed
    exact (hsound _ crossing).not_agrees hlast hlatest rfl (by decide)
      (h crossing oneByOne_crossing drained_crossed ⟨2⟩ (by decide) 5 (by decide +kernel))
  · intro h
    have hdrained : overtaken.Drained [⟨1⟩, ⟨2⟩, ⟨3⟩] := by
      unfold Drained
      decide +kernel
    have hlatest : (overtaken.line ⟨3⟩).latest? 5 = some (version .accepted) := by decide +kernel
    have hlast : (submissionsOf 5 overtaken.stored).getLast? = some (⟨2⟩, version .canceled) := by decide +kernel
    exact (hsound _ overtaking).not_agrees hlast hlatest rfl (by decide)
      (h overtaking hdrained ⟨3⟩ (by decide) 5 (by decide +kernel) (by decide +kernel))

end Exchange

end OrderDesk
