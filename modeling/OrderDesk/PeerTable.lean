import OrderDesk.ConnectionId
import OrderDesk.Mailbox

/-!
# The table of peers

Every connection to the server has an entry with the name that the kiosk gave
and the mailbox that the connection reads. A broadcast goes to the peers that
are encrypted. Mailboxes are numbered in the order in which they were attached
and outlive their entries; no two entries share one.
-/

namespace OrderDesk

structure Peer where
  connection : ConnectionId
  clientId? : Option String
  encrypted : Bool
  mailbox : Nat
  deriving DecidableEq, Repr

/-- The entry with a new name, if one is given, and encrypted, if it is so now. -/
def Peer.note (p : Peer) (clientId? : Option String) (encrypted : Bool) : Peer :=
  { p with clientId? := clientId? <|> p.clientId?, encrypted := p.encrypted || encrypted }

structure PeerTable (μ : Type) where
  peers : List Peer
  mailboxes : List (Mailbox μ)
  connections_nodup : (peers.map (·.connection)).Nodup
  mailboxes_nodup : (peers.map (·.mailbox)).Nodup
  mailbox_lt : ∀ p ∈ peers, p.mailbox < mailboxes.length

namespace PeerTable

variable {μ : Type}

def empty : PeerTable μ := ⟨[], [], by simp, by simp, by simp⟩

def get? (t : PeerTable μ) (c : ConnectionId) : Option Peer := t.peers.find? (·.connection = c)

def clientId? (t : PeerTable μ) (c : ConnectionId) : Option String := (t.get? c).bind (·.clientId?)

def size (t : PeerTable μ) : Nat := t.peers.length

def encryptedCount (t : PeerTable μ) : Nat := t.peers.countP (·.encrypted)

/-! ## Entries -/

def others (c : ConnectionId) (ps : List Peer) : List Peer := ps.filter (·.connection ≠ c)

theorem others_sublist (c : ConnectionId) (ps : List Peer) : (others c ps).Sublist ps := List.filter_sublist

theorem not_mem_others (c : ConnectionId) (ps : List Peer) : c ∉ (others c ps).map (·.connection) := by
  simp [others]

/-- Enters a connection with a new mailbox, neither named nor encrypted. An
entry that the connection has already is replaced. -/
def insert (t : PeerTable μ) (c : ConnectionId) : PeerTable μ where
  peers := others c t.peers ++ [⟨c, none, false, t.mailboxes.length⟩]
  mailboxes := t.mailboxes ++ [.empty]
  connections_nodup := by
    rw [List.map_append, List.nodup_append]
    refine ⟨((others_sublist c t.peers).map _).nodup t.connections_nodup, by simp, ?_⟩
    rintro a ha b hb rfl
    simp only [List.map_cons, List.map_nil, List.mem_singleton] at hb
    exact not_mem_others c t.peers (hb ▸ ha)
  mailboxes_nodup := by
    rw [List.map_append, List.nodup_append]
    refine ⟨((others_sublist c t.peers).map _).nodup t.mailboxes_nodup, by simp, ?_⟩
    rintro a ha b hb rfl
    simp only [List.map_cons, List.map_nil, List.mem_singleton] at hb
    obtain ⟨p, hp, rfl⟩ := List.mem_map.1 ha
    exact absurd (t.mailbox_lt p ((others_sublist c t.peers).mem hp)) (by omega)
  mailbox_lt p hp := by
    simp only [List.length_append, List.length_cons, List.length_nil]
    rcases List.mem_append.1 hp with hp | hp
    · exact Nat.lt_succ_of_lt (t.mailbox_lt p ((others_sublist c t.peers).mem hp))
    · rw [List.mem_singleton.1 hp]
      exact Nat.lt_succ_self _

def noted (c : ConnectionId) (clientId? : Option String) (encrypted : Bool) (ps : List Peer) : List Peer :=
  ps.map fun p => if p.connection = c then p.note clientId? encrypted else p

theorem connections_noted (c : ConnectionId) (clientId? : Option String) (encrypted : Bool) (ps : List Peer) :
    (noted c clientId? encrypted ps).map (·.connection) = ps.map (·.connection) := by
  simp only [noted, List.map_map]
  refine List.map_congr_left fun p _ => ?_
  simp only [Function.comp_apply]
  split <;> rfl

theorem mailboxes_noted (c : ConnectionId) (clientId? : Option String) (encrypted : Bool) (ps : List Peer) :
    (noted c clientId? encrypted ps).map (·.mailbox) = ps.map (·.mailbox) := by
  simp only [noted, List.map_map]
  refine List.map_congr_left fun p _ => ?_
  simp only [Function.comp_apply]
  split <;> rfl

def note (t : PeerTable μ) (c : ConnectionId) (clientId? : Option String) (encrypted : Bool) : PeerTable μ where
  peers := noted c clientId? encrypted t.peers
  mailboxes := t.mailboxes
  connections_nodup := connections_noted c clientId? encrypted t.peers ▸ t.connections_nodup
  mailboxes_nodup := mailboxes_noted c clientId? encrypted t.peers ▸ t.mailboxes_nodup
  mailbox_lt p hp := by
    obtain ⟨q, hq, rfl⟩ := List.mem_map.1 hp
    have := t.mailbox_lt q hq
    split <;> exact this

def setClientId (t : PeerTable μ) (c : ConnectionId) (clientId : String) : PeerTable μ := t.note c (some clientId) false

def markEncrypted (t : PeerTable μ) (c : ConnectionId) : PeerTable μ := t.note c none true

def remove (t : PeerTable μ) (c : ConnectionId) : PeerTable μ where
  peers := others c t.peers
  mailboxes := t.mailboxes
  connections_nodup := ((others_sublist c t.peers).map _).nodup t.connections_nodup
  mailboxes_nodup := ((others_sublist c t.peers).map _).nodup t.mailboxes_nodup
  mailbox_lt p hp := t.mailbox_lt p ((others_sublist c t.peers).mem hp)

/-! ## Mailboxes -/

def mapMailboxes (t : PeerTable μ) (f : Nat → Mailbox μ → Mailbox μ) : PeerTable μ where
  peers := t.peers
  mailboxes := t.mailboxes.mapIdx f
  connections_nodup := t.connections_nodup
  mailboxes_nodup := t.mailboxes_nodup
  mailbox_lt := by simpa using t.mailbox_lt

def mailbox? (t : PeerTable μ) (p : Peer) : Option (Mailbox μ) := t.mailboxes[p.mailbox]?

def close (t : PeerTable μ) (number : Nat) : PeerTable μ :=
  t.mapMailboxes fun i box => if i = number then box.close else box

def take? (t : PeerTable μ) (number : Nat) : Option (μ × PeerTable μ) := do
  let (message, rest) ← (← t.mailboxes[number]?).take?
  return (message, t.mapMailboxes fun i box => if i = number then rest else box)

def drain (t : PeerTable μ) : PeerTable μ := t.mapMailboxes fun _ => Mailbox.drain

def reaches (t : PeerTable μ) (p : Peer) : Bool := (t.mailbox? p).any fun box => !box.isClosed

def deliver (t : PeerTable μ) (ps : List Peer) (message : μ) : PeerTable μ :=
  t.mapMailboxes fun i box => if i ∈ ps.map (·.mailbox) then box.put message else box

def recipient? (t : PeerTable μ) (c : ConnectionId) : Option Peer := (t.get? c).filter t.reaches

def send (t : PeerTable μ) (c : ConnectionId) (message : μ) : PeerTable μ :=
  t.deliver (t.recipient? c).toList message

/-- The peers that a broadcast reaches: the encrypted ones whose mailbox is
open, but for the excepted connection. -/
def recipients (t : PeerTable μ) (except? : Option ConnectionId) : List Peer :=
  t.peers.filter fun p => p.encrypted && some p.connection ≠ except? && t.reaches p

def broadcast (t : PeerTable μ) (message : μ) (except? : Option ConnectionId) : PeerTable μ :=
  t.deliver (t.recipients except?) message

end PeerTable

end OrderDesk
