import OrderDesk.Proofs.Session.Frames
import OrderDesk.Proofs.Session.Integrity

/-!
# What a bad frame costs

A frame that opens and carries no packet costs itself: the session counts it
and goes on. Every other error costs the session. So an encrypted end reads
whatever its peer seals, frame by frame, and one that it cannot make sense of
does not bring the two out of step. Main result: `decode_costs`.
-/

namespace OrderDesk

namespace FrameCipher

theorem toNat_add_one {n : UInt64} (h : n.toNat + 1 < UInt64.size) : (n + 1).toNat = n.toNat + 1 := by
  rw [UInt64.toNat_add]
  exact Nat.mod_eq_of_lt h

variable {suite : CipherSuite} {c c' : FrameCipher}

theorem lt_of_openFrame {frame message : Bytes} (h : c.openFrame suite frame = .ok (message, c')) :
    c.received.toNat + 1 < UInt64.size := by
  by_contra hfull
  have hnone : succ? c.received = none := if_neg hfull
  simp only [openFrame, hnone] at h
  split at h
  · cases h
  · split at h <;> cases h

end FrameCipher

namespace Session

/-! ## One frame -/

/-- Nothing changes but the counter of a session with a cipher, which goes up by
one and does not start anew. -/
def CountsUp (s s' : Session) : Prop :=
  s.cipher? = none ∧ s' = s ∨
    ∃ c, s.cipher? = some c ∧ (c.received + 1).toNat = c.received.toNat + 1 ∧
      s' = s.withCipher { c with received := c.received + 1 }

section
variable {suite : CipherSuite} {s s' : Session} {frame message : Bytes}

theorem state_ne_failed_of_openFrame (h : s.openFrame suite frame = (s', .ok message)) : s.state ≠ .failed := by
  intro hfailed
  rw [openFrame, if_pos hfailed] at h
  cases h

theorem countsUp_counted (h : s.openFrame suite frame = (s', .ok message)) : s.CountsUp s.counted := by
  cases hcipher : s.cipher? with
  | none => exact .inl ⟨hcipher, counted_of_cipher?_eq_none hcipher⟩
  | some c =>
    obtain ⟨c', hopen⟩ := openFrame_under h hcipher
    refine .inr ⟨c, hcipher, FrameCipher.toNat_add_one (FrameCipher.lt_of_openFrame hopen), ?_⟩
    rw [counted, hcipher]

theorem decode_fatal_iff (suite : CipherSuite) (s : Session) (frame : Bytes) :
    (∃ e, (s.decode suite frame).2 = .error e ∧ e.isFatal = true) ↔ (s.decode suite frame).1.state = .failed := by
  have hd := decoded suite s frame
  generalize s.decode suite frame = out at hd
  cases hd with
  | unopened e | barred message p e => simp [NodeError.isFatal, fail, state, Phase.state]
  | garbled message e h => simp [NodeError.isFatal, s.alike_counted.state, state_ne_failed_of_openFrame h]
  | taken message p h => simp [s.alike_counted.state, state_ne_failed_of_openFrame h]

theorem countsUp_of_not_fatal {e : NodeError} (h : (s.decode suite frame).2 = .error e) (he : e.isFatal = false) :
    s.CountsUp (s.decode suite frame).1 := by
  have hd := decoded suite s frame
  generalize s.decode suite frame = out at hd h
  cases hd with
  | unopened | barred =>
    cases h
    cases he
  | garbled message e' hopen => exact countsUp_counted hopen
  | taken => cases h

end

/-! ## Two ends in step -/

/-- What the one end seals next is what the other opens next. Before it the one
has sealed so many frames, and the other has opened them. -/
structure InStep (sender receiver : Session) (n : Nat) : Prop where
  ciphers : ∃ c c', sender.phase = .encrypted c ∧ receiver.phase = .encrypted c' ∧ c.sendKey = c'.receiveKey ∧
    c.sent.toNat = n ∧ c'.received.toNat = n

/-- One thing after the other, and what became of each. -/
def each {α β : Type} (act : Session → α → Session × β) (s : Session) : List α → Session × List β
  | [] => (s, [])
  | a :: as => ((each act (act s a).1 as).1, (act s a).2 :: (each act (act s a).1 as).2)

section
variable (suite : CipherSuite)

def sealEach (s : Session) (messages : List (PacketKind × Bytes)) : Session × List (Except SessionError Bytes) :=
  s.each (fun s m => s.sealFrame suite m.1 m.2) messages

def decodeEach (s : Session) (frames : List Bytes) : Session × List (Except NodeError Packet) :=
  s.each (decode suite) frames

/-- What becomes of a message that arrives. -/
def reading (message : Bytes) : Except NodeError Packet := (Packet.decode message).mapError .protocol

end

variable {suite : CipherSuite} {sender receiver : Session} {n : Nat}

theorem decode_of_opened (party : Party) {c c' : FrameCipher} {frame message : Bytes}
    (h : c.openFrame suite frame = .ok (message, c')) :
    (⟨party, .encrypted c⟩ : Session).decode suite frame = (⟨party, .encrypted c'⟩, reading message) := by
  rw [decode, Wire.openFrame_of_encrypted, h]
  dsimp only
  unfold reading
  cases Packet.decode message <;> rfl

theorem InStep.seal (hs : suite.Seals) (h : InStep sender receiver n) (hn : n + 1 < UInt64.size) {kind : PacketKind}
    (hkind : kind.travelsInClear = false) (message : Bytes) :
    ∃ frame, (sender.sealFrame suite kind message).2 = .ok frame ∧
      (receiver.decode suite frame).2 = reading message ∧
      InStep (sender.sealFrame suite kind message).1 (receiver.decode suite frame).1 (n + 1) := by
  obtain ⟨c, c', hsender, hreceiver, hkey, hsent, hreceived⟩ := h.ciphers
  obtain ⟨party, phase⟩ := sender
  obtain rfl : phase = .encrypted c := hsender
  obtain ⟨party', phase'⟩ := receiver
  obtain rfl : phase' = .encrypted c' := hreceiver
  have hcounter : c.sent = c'.received := UInt64.toNat_inj.1 (hsent.trans hreceived.symm)
  have hsentlt : c.sent.toNat + 1 < UInt64.size := hsent.symm ▸ hn
  have hreceivedlt : c'.received.toNat + 1 < UInt64.size := hreceived.symm ▸ hn
  have hseal := FrameCipher.sealFrame_of_lt suite hsentlt message
  have hdecode := decode_of_opened party' (FrameCipher.openFrame_sealed hs hreceivedlt message)
  rw [hkey, hcounter] at hseal
  rw [Wire.sealFrame_of_encrypted, if_neg (Bool.eq_false_iff.1 hkind), hseal]
  refine ⟨_, rfl, ?_, ?_⟩
  · rw [hdecode]
  · rw [hdecode]
    refine ⟨_, _, rfl, rfl, rfl, ?_, ?_⟩
    · exact (FrameCipher.toNat_add_one hreceivedlt).trans (congrArg (· + 1) hreceived)
    · exact (FrameCipher.toNat_add_one hreceivedlt).trans (congrArg (· + 1) hreceived)

theorem InStep.each (hs : suite.Seals) {messages : List (PacketKind × Bytes)} (h : InStep sender receiver n)
    (hn : n + messages.length < UInt64.size) (hkinds : ∀ m ∈ messages, m.1.travelsInClear = false) :
    ∃ frames, (sender.sealEach suite messages).2 = frames.map .ok ∧
      (receiver.decodeEach suite frames).2 = messages.map (fun m => reading m.2) ∧
      InStep (sender.sealEach suite messages).1 (receiver.decodeEach suite frames).1 (n + messages.length) := by
  -- after each message the ends are in step again, whether it was a packet or not
  induction messages generalizing sender receiver n with
  | nil => exact ⟨[], rfl, rfl, h⟩
  | cons m messages ih =>
    rw [List.length_cons] at hn ⊢
    obtain ⟨frame, hseal, hdecode, hstep⟩ := h.seal hs (by omega) (hkinds m List.mem_cons_self) m.2
    have hrest : ∀ m' ∈ messages, m'.1.travelsInClear = false := fun m' hm' => hkinds m' (List.mem_cons_of_mem m hm')
    obtain ⟨frames, hseals, hdecodes, hsteps⟩ := ih hstep (by omega) hrest
    refine ⟨frame :: frames, ?_, ?_, ?_⟩
    · exact congrArg₂ List.cons hseal hseals
    · exact congrArg₂ List.cons hdecode hdecodes
    · rw [Nat.add_comm messages.length, ← Nat.add_assoc]
      exact hsteps

theorem InStep.receiver_seals (h : InStep sender receiver n) (suite : CipherSuite) (kind : PacketKind)
    (message : Bytes) : InStep sender (receiver.sealFrame suite kind message).1 n := by
  obtain ⟨c, c', hsender, hreceiver, hkey, hsent, hreceived⟩ := h.ciphers
  obtain ⟨party, phase⟩ := receiver
  obtain rfl : phase = .encrypted c' := hreceiver
  rw [Wire.sealFrame_of_encrypted]
  split
  · exact h
  · unfold FrameCipher.sealFrame
    cases FrameCipher.succ? c'.sent with
    | none => exact h
    | some sent => exact ⟨c, _, hsender, rfl, hkey, hsent, hreceived⟩

theorem InStep.sender_decodes (h : InStep sender receiver n) {frame : Bytes}
    (hlive : (sender.decode suite frame).1.state ≠ .failed) : InStep (sender.decode suite frame).1 receiver n := by
  obtain ⟨c, c', hsender, hreceiver, hkey, hsent, hreceived⟩ := h.ciphers
  obtain ⟨party, phase⟩ := sender
  obtain rfl : phase = .encrypted c := hsender
  have hcounted : InStep (⟨party, .encrypted c⟩ : Session).counted receiver n :=
    ⟨_, c', rfl, hreceiver, hkey, hsent, hreceived⟩
  have hd := decoded suite ⟨party, .encrypted c⟩ frame
  generalize decode suite ⟨party, .encrypted c⟩ frame = out at hd hlive
  cases hd with
  | unopened | barred => exact absurd rfl hlive
  | garbled | taken => exact hcounted

/-- After a frame is decoded the session has failed exactly if the error is
fatal; an error that is not fatal leaves everything as it was but the counter of
a session with a cipher. Two ends that a handshake leaves are in step both ways.
Of ends in step, whatever the one seals in order, the other makes of it in order
what there is to be made of it, and they are in step again; what goes the other
way meanwhile leaves them in step. -/
theorem decode_costs (suite : CipherSuite) :
    (∀ (s : Session) (frame : Bytes),
      ((∃ e, (s.decode suite frame).2 = .error e ∧ e.isFatal = true) ↔ (s.decode suite frame).1.state = .failed) ∧
        ∀ e, (s.decode suite frame).2 = .error e → e.isFatal = false → s.CountsUp (s.decode suite frame).1) ∧
      (suite.Seals →
        (∀ sender receiver n messages, InStep sender receiver n → n + messages.length < UInt64.size →
          (∀ m ∈ messages, m.1.travelsInClear = false) →
          ∃ frames, (sender.sealEach suite messages).2 = frames.map .ok ∧
            (receiver.decodeEach suite frames).2 = messages.map (fun m => reading m.2) ∧
            InStep (sender.sealEach suite messages).1 (receiver.decodeEach suite frames).1 (n + messages.length)) ∧
          ∀ clientId secret clientDraws serverDraws now, suite.Agrees clientDraws.rest.next secret →
            ∃ atClient atServer,
              shakeHands suite clientId secret clientDraws serverDraws now = .ok (atClient, atServer) ∧
                InStep atClient atServer 0 ∧ InStep atServer atClient 0) ∧
      ∀ sender receiver n, InStep sender receiver n →
        (∀ kind message, InStep sender (receiver.sealFrame suite kind message).1 n) ∧
          ∀ frame, (sender.decode suite frame).1.state ≠ .failed → InStep (sender.decode suite frame).1 receiver n := by
  refine ⟨fun s frame => ⟨decode_fatal_iff suite s frame, fun e => countsUp_of_not_fatal⟩, fun hs => ⟨?_, ?_⟩, ?_⟩
  · intro sender receiver n messages h hn hkinds
    exact h.each hs hn hkinds
  · intro clientId secret clientDraws serverDraws now ha
    exact ⟨_, _, shakeHands_eq hs clientId secret clientDraws serverDraws now ha,
      ⟨_, _, rfl, rfl, rfl, rfl, rfl⟩, ⟨_, _, rfl, rfl, rfl, rfl, rfl⟩⟩
  · intro sender receiver n h
    exact ⟨h.receiver_seals suite, fun frame => h.sender_decodes⟩

/-- A request, an unknown id, text that is no document, bytes that are no text, a
body of another shape. -/
def assorted : List (PacketKind × Bytes) :=
  [(.requestData, (Packet.requestData ⟨"menus"⟩).encode),
    (.requestData, Bytes.ofString "\x7b\"packet_id\":\"greet\",\"data\":null\x7d"),
    (.dataAdded, Bytes.ofString "\x7b\"packet_id\":"), (.dataAdded, [0xff]),
    (.requestData, Bytes.ofString "\x7b\"packet_id\":\"request_data\",\"data\":[]\x7d")]

/-- They take the last numbers that there are, and one of them is a packet. -/
theorem decode_costs_assorted :
    let out : FrameCipher := ⟨.replicate 32 1, .replicate 32 2, .ofNat (UInt64.size - 6), 0⟩
    let back : FrameCipher := ⟨.replicate 32 2, .replicate 32 1, 0, .ofNat (UInt64.size - 6)⟩
    let sender : Session := ⟨.client "front", .encrypted out⟩
    let receiver : Session := ⟨.server (.replicate 32 9) (some "front"), .encrypted back⟩
    InStep sender receiver (UInt64.size - 6) ∧
      ∃ frames, (sender.sealEach .standard assorted).2 = frames.map .ok ∧
        (receiver.decodeEach .standard frames).2.map (·.toOption) =
          [some (.requestData ⟨"menus"⟩), none, none, none, none] ∧
        InStep (sender.sealEach .standard assorted).1 (receiver.decodeEach .standard frames).1 (UInt64.size - 1) := by
  intro out back sender receiver
  have hstep : InStep sender receiver (UInt64.size - 6) := ⟨out, back, rfl, rfl, rfl, rfl, rfl⟩
  have hkinds : ∀ m ∈ assorted, m.1.travelsInClear = false := by decide
  obtain ⟨frames, hseals, hdecodes, hsteps⟩ :=
    ((decode_costs .standard).2.1 CipherSuite.standard_seals).1 sender receiver _ assorted hstep (by decide) hkinds
  refine ⟨hstep, frames, hseals, ?_, hsteps⟩
  rw [hdecodes]
  decide +kernel

end Session

end OrderDesk
