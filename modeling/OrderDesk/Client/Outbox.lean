import OrderDesk.Mailbox
import OrderDesk.Packet.Basic

/-!
# The outbox of a kiosk

A packet goes straight to the link only if the link is encrypted and nothing
waits; else it waits in line, so that no packet overtakes an older one. Every
link has a channel of its own. A link whose channel is closed is given up when
a packet is offered to it, and the packet stays.
-/

namespace OrderDesk

structure Link where
  generation : Nat
  encrypted : Bool
  deriving DecidableEq, Repr

structure Outgoing where
  packet : Packet
  awaited : Bool
  deriving DecidableEq, Repr

structure Outbox where
  link? : Option Link
  pending : List Packet
  /-- The channel of every link there ever was. -/
  channels : List (Mailbox Outgoing)
  generation_lt : ∀ l ∈ link?, l.generation < channels.length

inductive Sending
  | direct
  | queued
  deriving DecidableEq, Repr

namespace Outbox

def empty : Outbox := ⟨none, [], [], by simp⟩

def live? (o : Outbox) : Option Link := o.link?.filter (·.encrypted)

def isOpen (o : Outbox) (generation : Nat) : Bool := (o.channels[generation]?).any fun box => !box.isClosed

def mapChannel (o : Outbox) (generation : Nat) (f : Mailbox Outgoing → Mailbox Outgoing) : Outbox where
  link? := o.link?
  pending := o.pending
  channels := o.channels.modify generation f
  generation_lt := by simpa using o.generation_lt

def unlink (o : Outbox) : Outbox := { o with link? := none, generation_lt := by simp }

/-! ## Sending -/

def enqueue (o : Outbox) (p : Packet) : Outbox := { o with pending := o.pending ++ [p] }

def send (o : Outbox) (p : Packet) (awaited : Bool) : Outbox × Sending :=
  match o.pending, o.live? with
  | [], some l =>
    if o.isOpen l.generation then (o.mapChannel l.generation (·.put ⟨p, awaited⟩), .direct)
    else (o.unlink.enqueue p, .queued)
  | _, _ => (o.enqueue p, .queued)

def handOver (o : Outbox) : Outbox :=
  match o.pending, o.live? with
  | p :: rest, some l =>
    if o.isOpen l.generation then { o.mapChannel l.generation (·.put ⟨p, false⟩) with pending := rest }
    else o.unlink
  | _, _ => o

/-- Moves waiting packets to the live link, in line, as long as it takes them. -/
def drain (o : Outbox) : Outbox := o.pending.foldl (fun o _ => o.handOver) o

/-! ## Links -/

/-- A connection is made: a new link, not yet encrypted, with a channel of its
own. -/
def install (o : Outbox) : Outbox where
  link? := some ⟨o.channels.length, false⟩
  pending := o.pending
  channels := o.channels ++ [.empty]
  generation_lt := by simp

def isCurrent (o : Outbox) (generation : Nat) : Bool := o.link?.any (·.generation = generation)

/-- Marks the link as encrypted. -/
def encrypt (o : Outbox) : Outbox where
  link? := o.link?.map fun l => { l with encrypted := true }
  pending := o.pending
  channels := o.channels
  generation_lt := by
    intro l hl
    obtain ⟨l', hl', rfl⟩ := Option.map_eq_some_iff.1 hl
    exact o.generation_lt l' hl'

/-- The link of a generation has finished its handshake and takes traffic:
first what waits. Without that link nothing happens. -/
def openLink (o : Outbox) (generation : Nat) : Outbox :=
  if o.isCurrent generation then o.encrypt.drain else o

/-- The link of a generation has ended. A newer link stays. -/
def teardown (o : Outbox) (generation : Nat) : Outbox := if o.isCurrent generation then o.unlink else o

def close (o : Outbox) (generation : Nat) : Outbox := o.mapChannel generation (·.close)

theorem isCurrent_teardown (o : Outbox) (generation : Nat) : (o.teardown generation).isCurrent generation = false := by
  unfold teardown
  split
  · rfl
  · next h => exact Bool.eq_false_iff.2 h

theorem isOpen_close (o : Outbox) (generation : Nat) : (o.close generation).isOpen generation = false := by
  unfold close mapChannel isOpen
  cases h : o.channels[generation]? <;> simp [h, Mailbox.close]

def take? (o : Outbox) (generation : Nat) : Option (Outgoing × Outbox) := do
  let (out, rest) ← (← o.channels[generation]?).take?
  return (out, o.mapChannel generation fun _ => rest)

end Outbox

end OrderDesk
