import OrderDesk.Crypto.ChaCha20
import OrderDesk.Crypto.Poly1305

/-!
# Sealed messages

Sealing hides a message and appends a tag of 16 bytes that binds it, together
with associated data, to the key and the nonce. What was sealed is unsealed by
the same key, nonce and associated data.
-/

namespace OrderDesk.Sealing

def fill (bs : Bytes) : Bytes := List.replicate ((16 - bs.length % 16) % 16) 0

/-- What the tag is computed of: both texts, each filled up, and their lengths. -/
def authenticated (associated hidden : Bytes) : Bytes :=
  associated ++ fill associated ++ (hidden ++ fill hidden) ++ Bytes.ofNatLE 8 associated.length ++
    Bytes.ofNatLE 8 hidden.length

def tag (key : Key) (nonce : Nonce) (associated hidden : Bytes) : Bytes :=
  Poly1305.tag ((ChaCha20.block key nonce 0).take 32) (authenticated associated hidden)

def sealed (key : Key) (nonce : Nonce) (associated message : Bytes) : Bytes :=
  let hidden := ChaCha20.apply key nonce message
  hidden ++ tag key nonce associated hidden

def unsealed? (key : Key) (nonce : Nonce) (associated sealed : Bytes) : Option Bytes :=
  let hidden := sealed.take (sealed.length - 16)
  if 16 ≤ sealed.length ∧ sealed.drop (sealed.length - 16) = tag key nonce associated hidden then
    some (ChaCha20.apply key nonce hidden)
  else none

@[simp] theorem length_tag (key : Key) (nonce : Nonce) (associated hidden : Bytes) :
    (tag key nonce associated hidden).length = 16 :=
  Poly1305.length_tag _ _

@[simp] theorem length_sealed (key : Key) (nonce : Nonce) (associated message : Bytes) :
    (sealed key nonce associated message).length = message.length + 16 := by
  simp [sealed]

theorem unsealed?_sealed (key : Key) (nonce : Nonce) (associated message : Bytes) :
    unsealed? key nonce associated (sealed key nonce associated message) = some message := by
  have hn : (sealed key nonce associated message).length - 16 = (ChaCha20.apply key nonce message).length := by simp
  simp only [unsealed?, hn]
  rw [if_pos]
  · simp [sealed]
  · simp [sealed]

theorem unsealed?_eq_some_iff {key : Key} {nonce : Nonce} {associated sealedForm message : Bytes} :
    unsealed? key nonce associated sealedForm = some message ↔ sealedForm = sealed key nonce associated message := by
  constructor
  · intro h
    simp only [unsealed?] at h
    split at h
    · next htag =>
      cases h
      simp only [sealed, ChaCha20.apply_apply]
      rw [← htag.2, List.take_append_drop]
    · cases h
  · rintro rfl
    exact unsealed?_sealed key nonce associated message

theorem message_eq_of_sealed_eq {key : Key} {nonce : Nonce} {associated associated' message message' : Bytes}
    (h : sealed key nonce associated message = sealed key nonce associated' message') : message = message' := by
  have hlength : message.length = message'.length := by simpa using congrArg List.length h
  have hhidden : ChaCha20.apply key nonce message = ChaCha20.apply key nonce message' :=
    List.append_inj_left h (by simpa using hlength)
  simpa using congrArg (ChaCha20.apply key nonce) hhidden

end OrderDesk.Sealing
