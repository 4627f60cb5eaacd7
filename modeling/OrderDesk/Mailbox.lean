/-!
# Mailboxes

A queue of messages with one reader. Once the reader has gone the mailbox is
closed and takes nothing more.
-/

namespace OrderDesk

structure Mailbox (μ : Type) where
  /-- What has arrived and is not yet taken, oldest first. -/
  messages : List μ
  isClosed : Bool
  deriving DecidableEq, Repr

namespace Mailbox

variable {μ : Type}

def empty : Mailbox μ := ⟨[], false⟩

def put (box : Mailbox μ) (message : μ) : Mailbox μ :=
  if box.isClosed then box else { box with messages := box.messages ++ [message] }

def take? (box : Mailbox μ) : Option (μ × Mailbox μ) :=
  match box.messages with
  | [] => none
  | message :: rest => some (message, { box with messages := rest })

def drain (box : Mailbox μ) : Mailbox μ := { box with messages := [] }

def close (box : Mailbox μ) : Mailbox μ := { box with isClosed := true }

@[simp] theorem messages_put_of_open {box : Mailbox μ} (h : box.isClosed = false) (m : μ) :
    (box.put m).messages = box.messages ++ [m] := by simp [put, h]

@[simp] theorem put_of_closed {box : Mailbox μ} (h : box.isClosed = true) (m : μ) : box.put m = box := by
  simp [put, h]

@[simp] theorem isClosed_put (box : Mailbox μ) (m : μ) : (box.put m).isClosed = box.isClosed := by
  unfold put
  split <;> rfl

end Mailbox

end OrderDesk
