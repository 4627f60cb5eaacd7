import Mathlib.Data.List.Perm.Basic
import OrderDesk.Proofs.Server.Peers

/-!
# The mailboxes of a table

A mailbox that is open takes what is delivered to it, and its reader takes from
the front. A broadcast serves one peer after the other; that it is made at once
is no loss, also if readers go away between two turns: `serve_broadcast`.
-/

namespace OrderDesk.PeerTable

variable {μ : Type}

/-! ## Mailboxes -/

/-- What is in a mailbox. -/
def contents (t : PeerTable μ) (n : Nat) : List μ := ((t.mailboxes[n]?).map (·.messages)).getD []

section
variable {t : PeerTable μ} {c : ConnectionId} {p : Peer} {n : Nat}

theorem mailboxes_mapMailboxes (t : PeerTable μ) (f : Nat → Mailbox μ → Mailbox μ) (n : Nat) :
    (t.mapMailboxes f).mailboxes[n]? = (t.mailboxes[n]?).map (f n) := List.getElem?_mapIdx

theorem contents_mapMailboxes {f : Nat → Mailbox μ → Mailbox μ} (h : ∀ box, (f n box).messages = box.messages) :
    (t.mapMailboxes f).contents n = t.contents n := by
  rw [contents, contents, mailboxes_mapMailboxes, Option.map_map, Function.comp_def]
  simp only [h]

theorem isOpen_mapMailboxes {f : Nat → Mailbox μ → Mailbox μ} (h : ∀ box, (f n box).isClosed = box.isClosed) :
    (t.mapMailboxes f).isOpen n = t.isOpen n := by
  rw [isOpen, isOpen, mailboxes_mapMailboxes, Option.any_map]
  simp only [h]

theorem mailboxes_insert_of_lt (t : PeerTable μ) (c : ConnectionId) (hn : n < t.mailboxes.length) :
    (t.insert c).mailboxes[n]? = t.mailboxes[n]? := List.getElem?_append_left hn

theorem contents_insert (t : PeerTable μ) (c : ConnectionId) (n : Nat) : (t.insert c).contents n = t.contents n := by
  obtain hlt | hge := Nat.lt_or_ge n t.mailboxes.length
  · rw [contents, contents, mailboxes_insert_of_lt t c hlt]
  · have hboxes : (t.insert c).mailboxes = t.mailboxes ++ [.empty] := rfl
    rw [contents, contents, hboxes, List.getElem?_append_right hge, List.getElem?_eq_none hge, List.getElem?_singleton]
    split <;> rfl

theorem contents_deliver {ps : List Peer} (h : ∀ p ∈ ps, t.reaches p = true) (message : μ) (n : Nat) :
    (t.deliver ps message).contents n = t.contents n ++ if n ∈ ps.map (·.mailbox) then [message] else [] := by
  by_cases hn : n ∈ ps.map (·.mailbox)
  · obtain ⟨p, hp, rfl⟩ := List.mem_map.1 hn
    have hopen := h p hp
    rw [if_pos hn, contents, contents, deliver, mailboxes_mapMailboxes]
    rw [reaches, mailbox?] at hopen
    cases hbox : t.mailboxes[p.mailbox]? with
    | none =>
      rw [hbox] at hopen
      cases hopen
    | some box =>
      rw [hbox] at hopen
      have hclosed : box.isClosed = false := by simpa using hopen
      simp [hn, hclosed]
  · rw [if_neg hn, List.append_nil]
    exact contents_mapMailboxes fun box => by rw [if_neg hn]

theorem isOpen_deliver (t : PeerTable μ) (ps : List Peer) (message : μ) (n : Nat) :
    (t.deliver ps message).isOpen n = t.isOpen n := by
  refine isOpen_mapMailboxes fun box => ?_
  split
  · exact box.isClosed_put message
  · rfl

theorem isOpen_close (t : PeerTable μ) (k n : Nat) : (t.close k).isOpen n = (t.isOpen n && !decide (k = n)) := by
  by_cases h : n = k
  · subst h
    rw [close, isOpen, mailboxes_mapMailboxes, Option.any_map]
    simp [Mailbox.close]
  · rw [close, isOpen_mapMailboxes fun box => by rw [if_neg h]]
    simp [Ne.symm h]

theorem reaches_of_mem_recipient? (hp : p ∈ (t.recipient? c).toList) : t.reaches p = true :=
  (Option.filter_eq_some_iff.1 (Option.mem_toList.1 hp)).2

theorem reaches_of_mem_recipients {except? : Option ConnectionId} (hp : p ∈ t.recipients except?) :
    t.reaches p = true := by
  have := (List.mem_filter.1 hp).2
  rw [Bool.and_eq_true] at this
  exact this.2

/-- Only the mailbox that is read changes, and it loses what is taken. -/
theorem take?_spec {message : μ} {t' : PeerTable μ} (h : t.take? n = some (message, t')) :
    t'.peers = t.peers ∧ t'.mailboxes.length = t.mailboxes.length ∧ (∀ k, t'.isOpen k = t.isOpen k) ∧
      ∀ k, t.contents k = (if k = n then [message] else []) ++ t'.contents k := by
  unfold take? at h
  obtain ⟨box, hbox, h⟩ := Option.bind_eq_some_iff.1 h
  obtain ⟨⟨message', rest⟩, htake, h⟩ := Option.bind_eq_some_iff.1 h
  cases h
  unfold Mailbox.take? at htake
  split at htake
  · cases htake
  · next hmessages =>
    cases htake
    refine ⟨rfl, List.length_mapIdx, fun k => ?_, fun k => ?_⟩
    · rw [isOpen, isOpen, mailboxes_mapMailboxes, Option.any_map]
      by_cases hk : k = n
      · subst hk
        simp [hbox]
      · simp [hk]
    · rw [contents, contents, mailboxes_mapMailboxes, Option.map_map]
      by_cases hk : k = n
      · subst hk
        simp [hbox, hmessages]
      · simp [hk, Function.comp_def]

theorem contents_of_le (hn : t.mailboxes.length ≤ n) : t.contents n = [] := by
  rw [contents, List.getElem?_eq_none hn]
  rfl

end

/-! ## One peer after the other -/

def isRecipient (t : PeerTable μ) (except? : Option ConnectionId) (p : Peer) : Bool :=
  p.encrypted && some p.connection ≠ except? && t.reaches p

def shut (t : PeerTable μ) (numbers : List Nat) : PeerTable μ := numbers.foldl close t

/-- A broadcast as it goes from peer to peer, and the number of peers that it is
queued for. Before the turn of a peer some readers go away. -/
def serve (message : μ) (except? : Option ConnectionId) (gone : Peer → List Nat) :
    List Peer → PeerTable μ → PeerTable μ × Nat
  | [], t => (t, 0)
  | p :: ps, t =>
    let t := t.shut (gone p)
    if t.isRecipient except? p then
      let (t, count) := serve message except? gone ps (t.deliver [p] message)
      (t, count + 1)
    else serve message except? gone ps t

section
variable {t : PeerTable μ} {p : Peer} {ps : List Peer} {except? : Option ConnectionId}

theorem mapMailboxes_self (t : PeerTable μ) : (t.mapMailboxes fun _ box => box) = t := by
  have hboxes : (t.mailboxes.mapIdx fun _ box => box) = t.mailboxes :=
    List.ext_getElem? fun i => by rw [List.getElem?_mapIdx, Option.map_id']
  obtain ⟨peers, mailboxes, _, _, _⟩ := t
  dsimp only at hboxes
  simp only [mapMailboxes, hboxes]

theorem mapMailboxes_mapMailboxes (t : PeerTable μ) (f g : Nat → Mailbox μ → Mailbox μ) :
    (t.mapMailboxes f).mapMailboxes g = t.mapMailboxes fun i box => g i (f i box) := by
  simp only [mapMailboxes, List.mapIdx_mapIdx]
  rfl

theorem shut_eq (t : PeerTable μ) (numbers : List Nat) :
    t.shut numbers = t.mapMailboxes fun i box => if i ∈ numbers then box.close else box := by
  induction numbers generalizing t with
  | nil => simp [shut, mapMailboxes_self]
  | cons k numbers ih =>
    have hcons : t.shut (k :: numbers) = (t.close k).shut numbers := rfl
    rw [hcons, ih, close, mapMailboxes_mapMailboxes]
    refine congrArg t.mapMailboxes (funext fun i => funext fun box => ?_)
    by_cases hk : i = k
    · simp [hk, Mailbox.close]
    · simp [hk]

theorem shut_append (t : PeerTable μ) (ns ks : List Nat) : t.shut (ns ++ ks) = (t.shut ns).shut ks := List.foldl_append

theorem peers_shut (t : PeerTable μ) (numbers : List Nat) : (t.shut numbers).peers = t.peers := by
  rw [shut_eq]
  rfl

theorem isOpen_shut (t : PeerTable μ) (numbers : List Nat) (n : Nat) :
    (t.shut numbers).isOpen n = (t.isOpen n && decide (n ∉ numbers)) := by
  rw [shut_eq, isOpen, mailboxes_mapMailboxes, Option.any_map]
  by_cases hn : n ∈ numbers
  · simp [hn, Mailbox.close]
  · simp [hn, isOpen]

theorem isRecipient_shut (t : PeerTable μ) (numbers : List Nat) (p : Peer) :
    (t.shut numbers).isRecipient except? p = (t.isRecipient except? p && decide (p.mailbox ∉ numbers)) := by
  have hopen : (t.shut numbers).reaches p = (t.reaches p && decide (p.mailbox ∉ numbers)) :=
    t.isOpen_shut numbers p.mailbox
  rw [isRecipient, isRecipient, hopen, Bool.and_assoc _ (t.reaches p)]

theorem isRecipient_deliver (t : PeerTable μ) (ps : List Peer) (message : μ) (p : Peer) :
    (t.deliver ps message).isRecipient except? p = t.isRecipient except? p :=
  congrArg (_ && ·) (isOpen_deliver t ps message p.mailbox)

theorem filter_ne_recipients (early : List Nat) (hp : p.mailbox ∉ ps.map (·.mailbox)) (message : μ) :
    ps.filter (((t.deliver [p] message).shut early).isRecipient except?) =
      ps.filter ((t.shut (early.filter (· ≠ p.mailbox))).isRecipient except?) := by
  refine List.filter_congr fun q hq => ?_
  have hne : q.mailbox ≠ p.mailbox := fun heq => hp (List.mem_map.2 ⟨q, hq, heq⟩)
  rw [isRecipient_shut, isRecipient_shut, isRecipient_deliver]
  simp [hne]

/-- A reader that goes away after its turn may as well go when all have had
theirs. -/
theorem shut_deliver_shut {early late : List Nat} {message : μ} (hp : p.mailbox ∉ ps.map (·.mailbox)) :
    (((t.deliver [p] message).shut early).deliver ps message).shut late =
      ((t.shut (early.filter (· ≠ p.mailbox))).deliver (p :: ps) message).shut
        (early.filter (· = p.mailbox) ++ late) := by
  simp only [shut_eq, deliver, mapMailboxes_mapMailboxes]
  refine congrArg t.mapMailboxes (funext fun i => funext fun box => ?_)
  by_cases hi : i = p.mailbox
  · subst hi
    by_cases he : p.mailbox ∈ early <;> by_cases hl : p.mailbox ∈ late <;> simp [he, hl, hp, Mailbox.close]
  · simp [hi]

/-- A broadcast that goes from peer to peer is one that is made at once, between
the readers that go away before it and those that go away after it. -/
theorem serve_eq (message : μ) (except? : Option ConnectionId) (gone : Peer → List Nat)
    (hps : (ps.map (·.mailbox)).Nodup) (t : PeerTable μ) :
    ∃ early late, serve message except? gone ps t =
      (((t.shut early).deliver (ps.filter ((t.shut early).isRecipient except?)) message).shut late,
        (ps.filter ((t.shut early).isRecipient except?)).length) := by
  induction ps generalizing t with
  | nil => exact ⟨[], [], by simp [serve, shut, deliver, mapMailboxes_self]⟩
  | cons p ps ih =>
    obtain ⟨hp, hps⟩ := List.nodup_cons.1 hps
    rw [serve]
    dsimp only
    by_cases hreached : (t.shut (gone p)).isRecipient except? p = true
    · obtain ⟨early, late, hserve⟩ := ih hps ((t.shut (gone p)).deliver [p] message)
      have hfirst : (t.shut (gone p ++ early.filter (· ≠ p.mailbox))).isRecipient except? p = true := by
        rw [shut_append, isRecipient_shut, hreached]
        simp
      refine ⟨gone p ++ early.filter (· ≠ p.mailbox), early.filter (· = p.mailbox) ++ late, ?_⟩
      rw [if_pos hreached, hserve, List.filter_cons_of_pos hfirst, filter_ne_recipients early hp message,
        t.shut_append (gone p), shut_deliver_shut fun hin => hp ((List.filter_sublist.map _).mem hin)]
      rfl
    · obtain ⟨early, late, hserve⟩ := ih hps (t.shut (gone p))
      have hskipped : ¬ (t.shut (gone p ++ early)).isRecipient except? p = true := by
        rw [shut_append, isRecipient_shut, Bool.and_eq_true]
        exact fun h => hreached h.1
      refine ⟨gone p ++ early, late, ?_⟩
      rw [if_neg hreached, hserve, List.filter_cons_of_neg hskipped, shut_append]

/-- Whatever the order of the turns. -/
theorem serve_broadcast (message : μ) (except? : Option ConnectionId) (gone : Peer → List Nat) (t : PeerTable μ)
    (hps : ps.Perm t.peers) :
    ∃ early late, serve message except? gone ps t =
      (((t.shut early).broadcast message except?).shut late, ((t.shut early).recipients except?).length) := by
  obtain ⟨early, late, hserve⟩ := serve_eq message except? gone ((hps.map _).nodup_iff.2 t.mailboxes_nodup) t
  have hrecipients : (ps.filter ((t.shut early).isRecipient except?)).Perm ((t.shut early).recipients except?) := by
    rw [recipients, peers_shut]
    exact hps.filter _
  refine ⟨early, late, ?_⟩
  rw [hserve, hrecipients.length_eq, broadcast, deliver, deliver]
  congr 2
  refine congrArg (t.shut early).mapMailboxes (funext fun i => funext fun box => ?_)
  simp only [(hrecipients.map _).mem_iff]

end

end OrderDesk.PeerTable
