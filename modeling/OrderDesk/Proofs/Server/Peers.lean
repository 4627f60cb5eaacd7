import Mathlib.Data.List.Nodup
import OrderDesk.PeerTable

/-!
# What waits for a peer

The mailbox of a connection is a queue. A broadcast adds to it if the peer is
encrypted, its reader takes from the front, and what happens to other
connections leaves it alone.
-/

namespace OrderDesk.PeerTable

variable {μ : Type}

/-- A connection has an entry, its mailbox is open, and this is what waits in
it. -/
def Queues (t : PeerTable μ) (c : ConnectionId) (encrypted : Bool) (waiting : List μ) : Prop :=
  ∃ p, t.get? c = some p ∧ p.encrypted = encrypted ∧ t.mailbox? p = some ⟨waiting, false⟩

def waiting (t : PeerTable μ) (c : ConnectionId) : List μ :=
  (((t.get? c).bind t.mailbox?).map (·.messages)).getD []

section
variable {t : PeerTable μ} {c c' : ConnectionId} {p : Peer} {encrypted : Bool} {waiting : List μ}

theorem mem_of_get? (h : t.get? c = some p) : p ∈ t.peers := List.mem_of_find?_eq_some h

theorem connection_of_get? (h : t.get? c = some p) : p.connection = c := by
  have := List.find?_some h
  exact of_decide_eq_true this

theorem mailbox_ne {p' : Peer} (h : t.get? c = some p) (h' : t.get? c' = some p') (hne : c' ≠ c) :
    p.mailbox ≠ p'.mailbox := by
  intro heq
  obtain rfl : p = p' := List.inj_on_of_nodup_map t.mailboxes_nodup (mem_of_get? h) (mem_of_get? h') heq
  exact hne ((connection_of_get? h').symm.trans (connection_of_get? h))

theorem Queues.waiting_eq (h : t.Queues c encrypted waiting) : t.waiting c = waiting := by
  obtain ⟨p, hp, -, hbox⟩ := h
  rw [PeerTable.waiting, hp, Option.bind_some, hbox]
  rfl

/-! ## Mailboxes -/

theorem Queues.mapMailboxes (h : t.Queues c encrypted waiting) {f : Nat → Mailbox μ → Mailbox μ} {waiting' : List μ}
    (hf : ∀ p, t.get? c = some p → t.mailbox? p = some ⟨waiting, false⟩ → p.encrypted = encrypted →
      f p.mailbox ⟨waiting, false⟩ = ⟨waiting', false⟩) :
    (t.mapMailboxes f).Queues c encrypted waiting' := by
  obtain ⟨p, hp, he, hbox⟩ := h
  refine ⟨p, hp, he, ?_⟩
  have hget : (t.mailboxes.mapIdx f)[p.mailbox]? = (t.mailboxes[p.mailbox]?).map (f p.mailbox) := List.getElem?_mapIdx
  rw [mailbox?] at hbox
  rw [mailbox?, ← hf p hp hbox he]
  exact hget.trans (by rw [hbox]; rfl)

theorem Queues.broadcast (h : t.Queues c encrypted waiting) (message : μ) {except? : Option ConnectionId}
    (hne : except? ≠ some c) :
    (t.broadcast message except?).Queues c encrypted (if encrypted then waiting ++ [message] else waiting) := by
  refine h.mapMailboxes fun p hp hbox he => ?_
  have hreaches : t.reaches p = true := by
    rw [reaches, hbox]
    rfl
  have hmem : p.mailbox ∈ (t.recipients except?).map (·.mailbox) ↔ encrypted = true := by
    rw [List.mem_map]
    constructor
    · rintro ⟨p', hp', heq⟩
      obtain ⟨hpeer, hp'⟩ := List.mem_filter.1 hp'
      obtain rfl : p' = p := List.inj_on_of_nodup_map t.mailboxes_nodup hpeer (mem_of_get? hp) heq
      rw [Bool.and_eq_true, Bool.and_eq_true] at hp'
      exact he.symm.trans hp'.1.1
    · intro henc
      refine ⟨p, List.mem_filter.2 ⟨mem_of_get? hp, ?_⟩, rfl⟩
      have hconn : some p.connection ≠ except? := connection_of_get? hp ▸ hne.symm
      rw [Bool.and_eq_true, Bool.and_eq_true]
      exact ⟨⟨he.trans henc, decide_eq_true hconn⟩, hreaches⟩
  cases encrypted with
  | true =>
    rw [if_pos (hmem.2 rfl)]
    rfl
  | false =>
    rw [if_neg fun hin => Bool.false_ne_true (hmem.1 hin)]
    rfl

theorem Queues.broadcast_self (h : t.Queues c encrypted waiting) (message : μ) :
    (t.broadcast message (some c)).Queues c encrypted waiting := by
  refine h.mapMailboxes fun p hp _ _ => if_neg fun hin => ?_
  obtain ⟨p', hp', heq⟩ := List.mem_map.1 hin
  obtain ⟨hpeer, hp'⟩ := List.mem_filter.1 hp'
  obtain rfl : p' = p := List.inj_on_of_nodup_map t.mailboxes_nodup hpeer (mem_of_get? hp) heq
  rw [Bool.and_eq_true, Bool.and_eq_true] at hp'
  exact of_decide_eq_true hp'.1.2 (congrArg some (connection_of_get? hp))

theorem Queues.close (h : t.Queues c encrypted waiting) {n : Nat} (hn : ∀ p, t.get? c = some p → p.mailbox ≠ n) :
    (t.close n).Queues c encrypted waiting :=
  h.mapMailboxes fun p hp _ _ => if_neg (hn p hp)

theorem Queues.take?_of_ne (h : t.Queues c encrypted waiting) {n : Nat} (hn : ∀ p, t.get? c = some p → p.mailbox ≠ n)
    {message : μ} {t' : PeerTable μ} (ht : t.take? n = some (message, t')) : t'.Queues c encrypted waiting := by
  unfold take? at ht
  obtain ⟨box, -, ht⟩ := Option.bind_eq_some_iff.1 ht
  obtain ⟨⟨message', rest⟩, -, ht⟩ := Option.bind_eq_some_iff.1 ht
  cases ht
  exact h.mapMailboxes fun p hp _ _ => if_neg (hn p hp)

theorem Queues.take?_nil (h : t.Queues c encrypted []) (hp : t.get? c = some p) : t.take? p.mailbox = none := by
  obtain ⟨p', hp', -, hbox⟩ := h
  obtain rfl : p = p' := Option.some.inj (hp.symm.trans hp')
  rw [mailbox?] at hbox
  rw [PeerTable.take?, hbox]
  rfl

theorem Queues.take?_cons {message : μ} {rest : List μ} (h : t.Queues c encrypted (message :: rest))
    (hp : t.get? c = some p) : ∃ t', t.take? p.mailbox = some (message, t') ∧ t'.Queues c encrypted rest := by
  refine ⟨t.mapMailboxes fun i box => if i = p.mailbox then ⟨rest, false⟩ else box, ?_, ?_⟩
  · obtain ⟨p', hp', -, hbox⟩ := h
    obtain rfl : p = p' := Option.some.inj (hp.symm.trans hp')
    rw [mailbox?] at hbox
    rw [PeerTable.take?, hbox]
    rfl
  · refine h.mapMailboxes fun p' hp' _ _ => ?_
    obtain rfl : p = p' := Option.some.inj (hp.symm.trans hp')
    exact if_pos rfl

/-! ## Entries -/

theorem Queues.of_peers {t' : PeerTable μ} (h : t.Queues c encrypted waiting) (hget : ∀ p, t.get? c = some p →
    ∃ p', t'.get? c = some p' ∧ p'.encrypted = p.encrypted ∧ p'.mailbox = p.mailbox)
    (hboxes : t.mailboxes <+: t'.mailboxes) : t'.Queues c encrypted waiting := by
  obtain ⟨p, hp, he, hbox⟩ := h
  obtain ⟨p', hp', he', hm⟩ := hget p hp
  refine ⟨p', hp', he'.trans he, ?_⟩
  rw [mailbox?, hm]
  rw [mailbox?] at hbox
  obtain ⟨new, hnew⟩ := hboxes
  rw [← hnew, List.getElem?_append_left (List.getElem?_eq_some_iff.1 hbox).1, hbox]

theorem find?_others (hne : c' ≠ c) (ps : List Peer) :
    (others c' ps).find? (·.connection = c) = ps.find? (·.connection = c) := by
  rw [others, List.find?_filter]
  refine congrArg (List.find? · ps) (funext fun p => ?_)
  by_cases hp : p.connection = c
  · simp [hp, hne.symm]
  · simp [hp]

theorem get?_insert (t : PeerTable μ) (hne : c' ≠ c) : (t.insert c').get? c = t.get? c := by
  refine List.find?_append.trans ?_
  rw [find?_others hne]
  have hlast : List.find? (fun p : Peer => p.connection = c) [⟨c', none, false, t.mailboxes.length⟩] = none := by
    simp [hne]
  rw [hlast, Option.or_none]
  rfl

theorem Queues.insert (h : t.Queues c encrypted waiting) (hne : c' ≠ c) : (t.insert c').Queues c encrypted waiting :=
  h.of_peers (fun p hp => ⟨p, (t.get?_insert hne).trans hp, rfl, rfl⟩) (List.prefix_append _ _)

theorem Queues.leave (h : t.Queues c encrypted waiting) (hne : c' ≠ c) (hp : t.get? c' = some p) :
    ((t.remove c').close p.mailbox).Queues c encrypted waiting := by
  have hget : (t.remove c').get? c = t.get? c := find?_others hne t.peers
  have hremove : (t.remove c').Queues c encrypted waiting :=
    h.of_peers (fun p' hp' => ⟨p', hget.trans hp', rfl, rfl⟩) (List.prefix_refl _)
  exact hremove.close fun p' hp' => mailbox_ne (hget ▸ hp') hp hne

theorem get?_note (t : PeerTable μ) (c' : ConnectionId) (clientId? : Option String) (encrypted : Bool)
    (c : ConnectionId) : (t.note c' clientId? encrypted).get? c =
      (t.get? c).map fun p => if p.connection = c' then p.note clientId? encrypted else p := by
  have hpred : (fun p : Peer => decide (p.connection = c)) ∘
      (fun p => if p.connection = c' then p.note clientId? encrypted else p) = fun p => decide (p.connection = c) := by
    funext p
    simp only [Function.comp_apply]
    split <;> rfl
  exact List.find?_map.trans (by rw [hpred]; rfl)

theorem Queues.note (h : t.Queues c encrypted waiting) (hne : c' ≠ c) (clientId? : Option String) (encrypted' : Bool) :
    (t.note c' clientId? encrypted').Queues c encrypted waiting := by
  refine h.of_peers (fun p hp => ⟨p, ?_, rfl, rfl⟩) (List.prefix_refl _)
  rw [get?_note, hp, Option.map_some, if_neg]
  exact connection_of_get? hp ▸ hne.symm

theorem Queues.note_self (h : t.Queues c encrypted waiting) (clientId? : Option String) (encrypted' : Bool) :
    (t.note c clientId? encrypted').Queues c (encrypted || encrypted') waiting := by
  obtain ⟨p, hp, he, hbox⟩ := h
  refine ⟨p.note clientId? encrypted', ?_, congrArg (· || encrypted') he, hbox⟩
  rw [get?_note, hp, Option.map_some, if_pos (connection_of_get? hp)]

theorem get?_remove_self (t : PeerTable μ) (c : ConnectionId) : (t.remove c).get? c = none := by
  refine List.find?_eq_none.2 fun p hp hc => ?_
  exact not_mem_others c t.peers (List.mem_map.2 ⟨p, hp, of_decide_eq_true hc⟩)

theorem get?_insert_self (t : PeerTable μ) (c : ConnectionId) :
    (t.insert c).get? c = some ⟨c, none, false, t.mailboxes.length⟩ := by
  have hnone : (others c t.peers).find? (·.connection = c) = none := t.get?_remove_self c
  exact List.find?_append.trans (by rw [hnone]; simp)

theorem queues_insert_self (t : PeerTable μ) (c : ConnectionId) : (t.insert c).Queues c false [] :=
  ⟨_, t.get?_insert_self c, rfl, List.getElem?_concat_length⟩

end

/-! ## Broadcasts -/

def isOpen (t : PeerTable μ) (n : Nat) : Bool := (t.mailboxes[n]?).any fun box => !box.isClosed

theorem isOpen_iff {t : PeerTable μ} {n : Nat} (hn : n < t.mailboxes.length) :
    t.isOpen n = true ↔ t.mailboxes[n].isClosed = false := by
  simp [isOpen, hn]

theorem mem_recipients_iff {t : PeerTable μ} {n : Nat} {except? : Option ConnectionId} :
    n ∈ (t.recipients except?).map (·.mailbox) ↔
      t.isOpen n = true ∧ ∃ p ∈ t.peers, p.mailbox = n ∧ p.encrypted = true ∧ some p.connection ≠ except? := by
  simp only [List.mem_map, recipients, List.mem_filter, Bool.and_eq_true, decide_eq_true_eq]
  constructor
  · rintro ⟨p, ⟨hp, ⟨he, hexcept⟩, hopen⟩, rfl⟩
    exact ⟨hopen, p, hp, rfl, he, hexcept⟩
  · rintro ⟨hopen, p, hp, rfl, he, hexcept⟩
    exact ⟨p, ⟨hp, ⟨he, hexcept⟩, hopen⟩, rfl⟩

/-- A broadcast comes last in the open mailboxes of encrypted peers, but for
the excepted connection. All else stays as it is. -/
theorem mailboxes_broadcast (t : PeerTable μ) (message : μ) (except? : Option ConnectionId) :
    (t.broadcast message except?).mailboxes = t.mailboxes.mapIdx fun n box =>
      if box.isClosed = false ∧ ∃ p ∈ t.peers, p.mailbox = n ∧ p.encrypted ∧ some p.connection ≠ except? then
        { box with messages := box.messages ++ [message] }
      else box := by
  refine List.mapIdx_eq_mapIdx_iff.2 fun n hn => ?_
  have hmem : n ∈ (t.recipients except?).map (·.mailbox) ↔ t.mailboxes[n].isClosed = false ∧
      ∃ p ∈ t.peers, p.mailbox = n ∧ p.encrypted ∧ some p.connection ≠ except? := by
    rw [mem_recipients_iff, isOpen_iff hn]
  by_cases hin : n ∈ (t.recipients except?).map (·.mailbox)
  · rw [if_pos hin, if_pos (hmem.1 hin), Mailbox.put, if_neg (by simp [(hmem.1 hin).1])]
  · rw [if_neg hin, if_neg (mt hmem.2 hin)]

end OrderDesk.PeerTable
