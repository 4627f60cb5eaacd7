import OrderDesk.Session.Framing
import OrderDesk.Session.Handshake

/-!
# What a frame does to a session

A frame that opens counts. What becomes of it depends on what it carries: if it
carries no packet it is dropped, if it carries a packet that may not travel now
it fails the session, and else the packet is taken.
-/

namespace OrderDesk

namespace FrameCipher

theorem openFrame_ok {suite : CipherSuite} {c c' : FrameCipher} {frame message : Bytes}
    (h : c.openFrame suite frame = .ok (message, c')) : c' = { c with received := c.received + 1 } := by
  unfold openFrame at h
  split at h
  · cases h
  · split at h
    · cases h
    · split at h
      · cases h
      · next received hreceived =>
        unfold succ? at hreceived
        split at hreceived
        · cases hreceived
          cases h
          rfl
        · cases hreceived

end FrameCipher

namespace Session

/-- The session after one more frame was opened, if there is a cipher. -/
def counted (s : Session) : Session :=
  match s.cipher? with
  | none => s
  | some cipher => s.withCipher { cipher with received := cipher.received + 1 }

/-- The handshake goes on with a packet of this kind. -/
def expects (s : Session) (kind : PacketKind) : Bool :=
  match s.side, s.state, kind with
  | .server, .unencrypted, .handShake | .server, .helloSent, .keyExchange => true
  | .client, .unencrypted, .hello | .client, .keyExchanged, .encryptComplete => true
  | _, _, _ => false

variable {suite : CipherSuite} {s : Session} {frame : Bytes}

theorem counted_of_cipher?_eq_none (h : s.cipher? = none) : s.counted = s := by
  rw [counted, h]

/-! ## What sealing and opening leave alone -/

def receiveKey? (s : Session) : Option Key := s.cipher?.map (·.receiveKey)

/-- The sessions differ in their counters at most. -/
structure Alike (s s' : Session) : Prop where
  party : s'.party = s.party
  state : s'.state = s.state
  key : s'.receiveKey? = s.receiveKey?

theorem Alike.refl (s : Session) : s.Alike s := ⟨rfl, rfl, rfl⟩

theorem Alike.trans {s' s'' : Session} (h : s.Alike s') (h' : s'.Alike s'') : s.Alike s'' :=
  ⟨h'.party.trans h.party, h'.state.trans h.state, h'.key.trans h.key⟩

theorem Alike.isEncrypted {s' : Session} (h : s.Alike s') : s'.isEncrypted = s.isEncrypted := by
  rw [Session.isEncrypted, Session.isEncrypted, h.state]

theorem alike_withCipher {cipher cipher' : FrameCipher} (h : s.cipher? = some cipher)
    (hkey : cipher'.receiveKey = cipher.receiveKey) : s.Alike (s.withCipher cipher') := by
  obtain ⟨party, phase⟩ := s
  cases phase with
  | unencrypted | helloSent | failed => cases h
  | keyExchanged | encrypted =>
    cases h
    exact ⟨rfl, rfl, congrArg some hkey⟩

theorem alike_counted (s : Session) : s.Alike s.counted := by
  cases h : s.cipher? with
  | none =>
    rw [counted_of_cipher?_eq_none h]
    exact .refl s
  | some cipher =>
    rw [counted, h]
    exact alike_withCipher h rfl

theorem alike_sealFrame (suite : CipherSuite) (s : Session) (kind : PacketKind) (message : Bytes) :
    s.Alike (s.sealFrame suite kind message).1 := by
  unfold sealFrame
  split
  · exact .refl s
  · split
    · exact .refl s
    · next cipher hcipher =>
      split
      · exact .refl s
      · split
        · exact .refl s
        · next frame cipher' hseal =>
          refine alike_withCipher hcipher ?_
          unfold FrameCipher.sealFrame at hseal
          split at hseal
          · cases hseal
          · cases hseal
            rfl

theorem alike_encodeAll (suite : CipherSuite) (s : Session) (ps : List Packet) : s.Alike (s.encodeAll suite ps).1 := by
  induction ps generalizing s with
  | nil => exact .refl s
  | cons p ps ih =>
    have hencode : s.Alike (s.encode suite p).1 := alike_sealFrame suite s p.kind p.encode
    unfold encodeAll
    split
    · next s' e hout =>
      rwa [hout] at hencode
    · next s' frame hout =>
      rw [hout] at hencode
      exact hencode.trans (ih s')

theorem encodeAll_singleton {p : Packet} {s' : Session} {frames : List Bytes}
    (h : s.encodeAll suite [p] = (s', frames, .ok ())) :
    ∃ frame, s.encode suite p = (s', .ok frame) ∧ frames = [frame] := by
  unfold encodeAll at h
  split at h
  · cases h
  · next s'' frame hout =>
    cases h
    exact ⟨frame, hout, rfl⟩

/-! ## Opening and decoding -/

theorem openFrame_ok {s' : Session} {message : Bytes} (h : s.openFrame suite frame = (s', .ok message)) :
    s' = s.counted := by
  unfold openFrame at h
  split at h
  · cases h
  · split at h
    · next hcipher =>
      cases h
      exact (counted_of_cipher?_eq_none hcipher).symm
    · next cipher hcipher =>
      split at h
      · cases h
      · next message' cipher' hopen =>
        cases h
        rw [counted, hcipher, FrameCipher.openFrame_ok hopen]

/-- A frame that opens while there is a cipher opens under that cipher. -/
theorem openFrame_under {s' : Session} {message : Bytes} {cipher : FrameCipher}
    (h : s.openFrame suite frame = (s', .ok message)) (hcipher : s.cipher? = some cipher) :
    ∃ cipher', cipher.openFrame suite frame = .ok (message, cipher') := by
  unfold openFrame at h
  split at h
  · cases h
  · rw [hcipher] at h
    dsimp only at h
    split at h
    · cases h
    · next message' cipher' hopen =>
      cases h
      exact ⟨cipher', hopen⟩

theorem fail_of_failed (h : s.state = .failed) : s.fail = s := by
  obtain ⟨party, phase⟩ := s
  cases phase <;> first | rfl | cases h

theorem openFrame_error {s' : Session} {e : SessionError} (h : s.openFrame suite frame = (s', .error e)) :
    s' = s.fail := by
  unfold openFrame at h
  split at h
  · next hs =>
    cases h
    exact (fail_of_failed hs).symm
  · split at h
    · cases h
    · split at h
      · cases h
        rfl
      · cases h

/-- The cases of a frame: it does not open, or it carries no packet, or one that
may not travel now, or a packet that is taken. -/
inductive Decoded (suite : CipherSuite) (s : Session) (frame : Bytes) : Session × Except NodeError Packet → Prop
  | unopened (e : SessionError) (h : s.openFrame suite frame = (s.fail, .error e)) :
    Decoded suite s frame (s.fail, .error (.session e))
  | garbled (message : Bytes) (e : ProtocolError) (h : s.openFrame suite frame = (s.counted, .ok message))
    (hp : Packet.decode message = .error e) : Decoded suite s frame (s.counted, .error (.protocol e))
  | barred (message : Bytes) (p : Packet) (e : SessionError) (h : s.openFrame suite frame = (s.counted, .ok message))
    (hp : Packet.decode message = .ok p) (hbarred : s.allows p.kind = false) :
    Decoded suite s frame (s.counted.fail, .error (.session e))
  | taken (message : Bytes) (p : Packet) (h : s.openFrame suite frame = (s.counted, .ok message))
    (hp : Packet.decode message = .ok p) (hallowed : s.allows p.kind = true) :
    Decoded suite s frame (s.counted, .ok p)

theorem allows_counted (s : Session) (kind : PacketKind) : s.counted.allows kind = s.allows kind := by
  rw [allows, allows, s.alike_counted.isEncrypted, s.alike_counted.state]

theorem decoded (suite : CipherSuite) (s : Session) (frame : Bytes) :
    Decoded suite s frame (s.decode suite frame) := by
  unfold decode
  split
  · next s' e hopen =>
    obtain rfl := openFrame_error hopen
    exact .unopened e hopen
  · next s' message hopen =>
    obtain rfl := openFrame_ok hopen
    split
    · next e hp => exact .garbled message e hopen hp
    · next p hp =>
      rw [checkAllowed, allows_counted]
      by_cases hallows : s.allows p.kind = true
      · rw [if_pos hallows]
        exact .taken message p hopen hp hallows
      · rw [if_neg hallows]
        exact .barred message p _ hopen hp (Bool.eq_false_iff.2 hallows)

theorem expects_counted (s : Session) (kind : PacketKind) : s.counted.expects kind = s.expects kind := by
  have hside : s.counted.side = s.side := by rw [side, side, s.alike_counted.party]
  unfold expects
  rw [hside, s.alike_counted.state]

/-! ## Packets out of place -/

theorem acceptHandshake_unexpected (suite : CipherSuite) (draws : Draws) (p : HandShake)
    (h : s.expects .handShake = false) :
    s.acceptHandshake suite draws p = ((s.fail, draws), .error (s.outOfPlace .handShake)) := by
  obtain ⟨party, phase⟩ := s
  cases party <;> cases phase <;> first | rfl | cases h

theorem acceptKeyExchange_unexpected (suite : CipherSuite) (now : UInt64) (p : KeyExchange)
    (h : s.expects .keyExchange = false) :
    s.acceptKeyExchange suite now p = (s.fail, .error (s.outOfPlace .keyExchange)) := by
  obtain ⟨party, phase⟩ := s
  cases party <;> cases phase <;> first | rfl | cases h

theorem acceptHello_unexpected (suite : CipherSuite) (draws : Draws) (p : Hello) (h : s.expects .hello = false) :
    s.acceptHello suite draws p = ((s.fail, draws), .error (s.outOfPlace .hello)) := by
  obtain ⟨party, phase⟩ := s
  cases party <;> cases phase <;> first | rfl | cases h

theorem acceptEncryptComplete_unexpected (p : EncryptComplete) (h : s.expects .encryptComplete = false) :
    s.acceptEncryptComplete p = (s.fail, .error (s.outOfPlace .encryptComplete)) := by
  obtain ⟨party, phase⟩ := s
  cases party <;> cases phase <;> first | rfl | cases h

/-- A frame opens and carries no packet. -/
def Garbles (suite : CipherSuite) (s : Session) (frame : Bytes) : Prop :=
  ∃ message e, (s.openFrame suite frame).2 = .ok message ∧ Packet.decode message = .error e

/-- A frame opens in the handshake, and its packet is not the one that the
handshake goes on with. -/
def Misplaces (suite : CipherSuite) (s : Session) (frame : Bytes) : Prop :=
  ∃ message p, (s.openFrame suite frame).2 = .ok message ∧ Packet.decode message = .ok p ∧
    s.isEncrypted = false ∧ s.expects p.kind = false

theorem decode_garbled (h : s.Garbles suite frame) : ∃ e, s.decode suite frame = (s.counted, .error (.protocol e)) := by
  obtain ⟨message, e, hopen, hp⟩ := h
  have hd := decoded suite s frame
  generalize s.decode suite frame = out at hd
  cases hd with
  | unopened e' h => cases hopen.symm.trans (congrArg Prod.snd h)
  | garbled message' e' => exact ⟨e', rfl⟩
  | barred message' p e' h hp' | taken message' p h hp' =>
    cases hopen.symm.trans (congrArg Prod.snd h)
    cases hp.symm.trans hp'

theorem decode_misplaced (h : s.Misplaces suite frame) :
    (∃ e, s.decode suite frame = (s.counted.fail, .error (.session e))) ∨
      ∃ p, s.decode suite frame = (s.counted, .ok p) ∧ s.isEncrypted = false ∧ s.counted.expects p.kind = false := by
  obtain ⟨message, p, hopen, hp, he, hexpects⟩ := h
  have hd := decoded suite s frame
  generalize s.decode suite frame = out at hd
  cases hd with
  | unopened e' h => cases hopen.symm.trans (congrArg Prod.snd h)
  | garbled message' e' h hp' =>
    cases hopen.symm.trans (congrArg Prod.snd h)
    cases hp.symm.trans hp'
  | barred message' p' e' => exact .inl ⟨e', rfl⟩
  | taken message' p' h hp' =>
    cases hopen.symm.trans (congrArg Prod.snd h)
    cases hp.symm.trans hp'
    exact .inr ⟨p, rfl, he, (s.expects_counted p.kind).trans hexpects⟩

end Session

end OrderDesk
