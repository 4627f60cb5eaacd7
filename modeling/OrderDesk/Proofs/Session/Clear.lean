import OrderDesk.Proofs.Session.Numbers
import OrderDesk.Proofs.Session.Refinement

/-!
# What an encrypted session lets out

The operations on an encrypted session in any order, until it fails. A packet of
the handshake's first three kinds is let out as it is and changes nothing; all
else is let out sealed, under one number after the other, and so the other end
opens it. Main result: `outgoing_run`.
-/

namespace OrderDesk.Session

/-- A frame that was let out, and the encoded packet it was made of. -/
structure Outgoing where
  kind : PacketKind
  message : Bytes
  frame : Bytes
  deriving DecidableEq, Repr

section
variable (suite : CipherSuite)

def outgoing? (s : Session) : Op → Option Outgoing
  | .sealFrame kind message => (s.sealFrame suite kind message).2.toOption.map (⟨kind, message, ·⟩)
  | _ => none

def outgoingIn (s : Session) : List Op → List Outgoing
  | [] => []
  | op :: ops => (s.outgoing? suite op).toList ++ (s.after suite op).outgoingIn ops

end

/-- The frames that are not to be read on the way. -/
def veiled (out : List Outgoing) : List Outgoing := out.filter (!·.kind.travelsInClear)

theorem veiled_cons_clear {o : Outgoing} (h : o.kind.travelsInClear = true) (out : List Outgoing) :
    veiled (o :: out) = veiled out := List.filter_cons_of_neg (by simp [h])

theorem veiled_cons_sealed {o : Outgoing} (h : o.kind.travelsInClear = false) (out : List Outgoing) :
    veiled (o :: out) = o :: veiled out := List.filter_cons_of_pos (by simp [h])

variable {suite : CipherSuite} {party : Party} {c : FrameCipher}

/-! ## One operation -/

/-- What an operation can do to an encrypted session, and the frame it lets out. -/
inductive Went (suite : CipherSuite) (party : Party) (c : FrameCipher) : Op → Session → Option Outgoing → Prop
  | failed (op : Op) (h : op = .fail ∨ op.isGuarded = true) : Went suite party c op ⟨party, .failed⟩ none
  | unmoved (op : Op) (h : ∀ kind message, op ≠ .sealFrame kind message) :
    Went suite party c op ⟨party, .encrypted c⟩ none
  | heldBack (kind : PacketKind) (message : Bytes) (hkind : kind.travelsInClear = false)
    (h : ¬ c.sent.toNat + 1 < UInt64.size) : Went suite party c (.sealFrame kind message) ⟨party, .encrypted c⟩ none
  | opened (frame : Bytes) :
    Went suite party c (.openFrame frame) ⟨party, .encrypted { c with received := c.received + 1 }⟩ none
  | clear (kind : PacketKind) (message : Bytes) (hkind : kind.travelsInClear = true) :
    Went suite party c (.sealFrame kind message) ⟨party, .encrypted c⟩ (some ⟨kind, message, message⟩)
  | sealed (kind : PacketKind) (message : Bytes) (hkind : kind.travelsInClear = false)
    (h : c.sent.toNat + 1 < UInt64.size) :
    Went suite party c (.sealFrame kind message) ⟨party, .encrypted { c with sent := c.sent + 1 }⟩
      (some ⟨kind, message, suite.sealed c.sendKey (.ofCounter c.sent) [] message⟩)

theorem sealFrame_of_clear (suite : CipherSuite) (party : Party) (c : FrameCipher) {kind : PacketKind}
    (h : kind.travelsInClear = true) (message : Bytes) :
    (⟨party, .encrypted c⟩ : Session).sealFrame suite kind message = (⟨party, .encrypted c⟩, .ok message) := by
  rw [Wire.sealFrame_of_encrypted, if_pos h]

theorem of_sealFrame_error {kind : PacketKind} {message : Bytes} {e : SessionError}
    (h : ((⟨party, .encrypted c⟩ : Session).sealFrame suite kind message).2 = .error e) :
    e = .crypto .sendCounterExhausted ∧ ¬ c.sent.toNat + 1 < UInt64.size := by
  rw [Wire.sealFrame_of_encrypted] at h
  split at h
  · cases h
  · split at h
    · next e' hseal =>
      cases h
      exact (FrameCipher.sealFrame_eq_error_iff.1 hseal).symm
    · cases h

theorem went_sealFrame (suite : CipherSuite) (party : Party) (c : FrameCipher) (kind : PacketKind) (message : Bytes) :
    Went suite party c (.sealFrame kind message)
      ((⟨party, .encrypted c⟩ : Session).after suite (.sealFrame kind message))
      ((⟨party, .encrypted c⟩ : Session).outgoing? suite (.sealFrame kind message)) := by
  rw [after, perform, outgoing?]
  cases hkind : kind.travelsInClear with
  | true =>
    rw [sealFrame_of_clear suite party c hkind]
    exact .clear kind message hkind
  | false =>
    rw [Wire.sealFrame_of_encrypted, if_neg (Bool.eq_false_iff.1 hkind)]
    by_cases hlt : c.sent.toNat + 1 < UInt64.size
    · rw [FrameCipher.sealFrame_of_lt suite hlt]
      exact .sealed kind message hkind hlt
    · rw [FrameCipher.sealFrame_eq_error_iff.2 ⟨hlt, rfl⟩]
      exact .heldBack kind message hkind hlt

theorem went_openFrame (suite : CipherSuite) (party : Party) (c : FrameCipher) (frame : Bytes) :
    Went suite party c (.openFrame frame) ((⟨party, .encrypted c⟩ : Session).after suite (.openFrame frame)) none := by
  rw [after, perform, Wire.openFrame_of_encrypted]
  cases hopen : c.openFrame suite frame with
  | error e => exact .failed _ (.inr rfl)
  | ok out =>
    obtain ⟨message, c'⟩ := out
    obtain rfl := FrameCipher.openFrame_ok hopen
    exact .opened frame

theorem went (suite : CipherSuite) (party : Party) (c : FrameCipher) (op : Op) :
    Went suite party c op ((⟨party, .encrypted c⟩ : Session).after suite op)
      ((⟨party, .encrypted c⟩ : Session).outgoing? suite op) := by
  cases op with
  | sealFrame kind message => exact went_sealFrame suite party c kind message
  | openFrame frame => exact went_openFrame suite party c frame
  | begin | checkInbound => exact .unmoved _ nofun
  | fail => exact .failed _ (.inl rfl)
  | acceptHandshake | acceptHello | acceptKeyExchange | acceptEncryptComplete =>
    -- the handshake is over: each of its steps fails the session
    cases party <;> exact .failed _ (.inr rfl)

/-! ## Any operations -/

/-- Frames as an encrypted session lets them out from a number on. -/
inductive Outflow (suite : CipherSuite) (key : Key) : UInt64 → List Outgoing → Prop
  | nil (n : UInt64) : Outflow suite key n []
  | clear {n : UInt64} {out : List Outgoing} (o : Outgoing) (hkind : o.kind.travelsInClear = true)
    (h : o.frame = o.message) (rest : Outflow suite key n out) : Outflow suite key n (o :: out)
  | sealed {n : UInt64} {out : List Outgoing} (o : Outgoing) (hkind : o.kind.travelsInClear = false)
    (hn : n.toNat + 1 < UInt64.size) (h : o.frame = suite.sealed key (.ofCounter n) [] o.message)
    (rest : Outflow suite key (n + 1) out) : Outflow suite key n (o :: out)

theorem after_of_failed (suite : CipherSuite) {s : Session} (h : s.phase = .failed) (op : Op) :
    s.after suite op = s := by
  obtain ⟨party, phase⟩ := s
  cases h
  cases party <;> cases op <;> rfl

theorem run_of_failed (suite : CipherSuite) {s : Session} (h : s.phase = .failed) (ops : List Op) :
    s.run suite ops = s := by
  induction ops with
  | nil => rfl
  | cons op ops ih =>
    rw [run, List.foldl_cons, after_of_failed suite h op]
    exact ih

theorem outgoingIn_of_failed (suite : CipherSuite) {s : Session} (h : s.phase = .failed) (ops : List Op) :
    s.outgoingIn suite ops = [] := by
  induction ops with
  | nil => rfl
  | cons op ops ih =>
    have hnone : s.outgoing? suite op = none := by
      cases op with
      | sealFrame kind message =>
        obtain ⟨e, he⟩ := Wire.sealFrame_of_failed suite h kind message
        rw [outgoing?, he]
        rfl
      | _ => rfl
    rw [outgoingIn, after_of_failed suite h op, ih, hnone]
    rfl

theorem outflow_run (suite : CipherSuite) (party : Party) (c : FrameCipher) (ops : List Op) :
    Outflow suite c.sendKey c.sent ((⟨party, .encrypted c⟩ : Session).outgoingIn suite ops) := by
  induction ops generalizing c with
  | nil => exact .nil c.sent
  | cons op ops ih =>
    rw [outgoingIn]
    have hwent := went suite party c op
    generalize (⟨party, .encrypted c⟩ : Session).after suite op = s' at hwent
    generalize (⟨party, .encrypted c⟩ : Session).outgoing? suite op = out? at hwent
    cases hwent with
    | failed =>
      rw [outgoingIn_of_failed suite rfl]
      exact .nil c.sent
    | unmoved | heldBack => exact ih c
    | opened frame => exact ih { c with received := c.received + 1 }
    | clear kind message hkind => exact .clear _ hkind rfl (ih c)
    | sealed kind message hkind hlt => exact .sealed _ hkind hlt rfl (ih { c with sent := c.sent + 1 })

/-- The session has failed, or its counter has gone up by the number of frames
it sealed. -/
theorem run_encrypted (suite : CipherSuite) (party : Party) (c : FrameCipher) (ops : List Op) :
    let s : Session := ⟨party, .encrypted c⟩
    (s.run suite ops).state = .failed ∨
      ∃ c', s.run suite ops = ⟨party, .encrypted c'⟩ ∧ c'.sendKey = c.sendKey ∧
        c'.sent.toNat = c.sent.toNat + (veiled (s.outgoingIn suite ops)).length := by
  induction ops generalizing c with
  | nil => exact .inr ⟨c, rfl, rfl, rfl⟩
  | cons op ops ih =>
    intro s
    have hwent := went suite party c op
    rw [run, List.foldl_cons, outgoingIn]
    change ((s.after suite op).run suite ops).state = .failed ∨ ∃ c', (s.after suite op).run suite ops = _ ∧ _
    generalize s.after suite op = s' at hwent
    generalize s.outgoing? suite op = out? at hwent
    cases hwent with
    | failed =>
      refine .inl ?_
      rw [run_of_failed suite rfl]
      rfl
    | unmoved | heldBack => exact ih c
    | opened frame => exact ih { c with received := c.received + 1 }
    | clear kind message hkind =>
      rw [Option.toList_some, List.singleton_append, veiled_cons_clear hkind]
      exact ih c
    | sealed kind message hkind hlt =>
      obtain hfailed | ⟨c', hrun, hkey, hsent⟩ := ih { c with sent := c.sent + 1 }
      · exact .inl hfailed
      · refine .inr ⟨c', hrun, hkey, ?_⟩
        rw [hsent, FrameCipher.toNat_add_one hlt, Option.toList_some, List.singleton_append, veiled_cons_sealed hkind,
          List.length_cons, Nat.add_assoc, Nat.add_comm 1]

section
variable {key : Key} {n : UInt64} {out : List Outgoing}

theorem Outflow.frame_of_clear (h : Outflow suite key n out) {o : Outgoing} (ho : o ∈ out)
    (hkind : o.kind.travelsInClear = true) : o.frame = o.message := by
  induction h with
  | nil => cases ho
  | clear o' _ hframe _ ih =>
    rcases List.mem_cons.1 ho with rfl | ho
    · exact hframe
    · exact ih ho
  | sealed o' hsealed _ _ _ ih =>
    rcases List.mem_cons.1 ho with rfl | ho
    · cases hkind.symm.trans hsealed
    · exact ih ho

theorem Outflow.frame_of_veiled (h : Outflow suite key n out) {i : Nat} {o : Outgoing}
    (ho : (veiled out)[i]? = some o) :
    n.toNat + i + 1 < UInt64.size ∧ o.frame = suite.sealed key (.ofCounter (.ofNat (n.toNat + i))) [] o.message := by
  induction h generalizing i with
  | nil => cases ho
  | clear o' hkind _ _ ih =>
    rw [veiled_cons_clear hkind] at ho
    exact ih ho
  | @sealed n out o' hkind hn hframe _ ih =>
    rw [veiled_cons_sealed hkind] at ho
    cases i with
    | zero =>
      cases ho
      refine ⟨hn, ?_⟩
      rw [Nat.add_zero, UInt64.ofNat_toNat]
      exact hframe
    | succ i =>
      have hnext : (n + 1).toNat + i = n.toNat + (i + 1) := by rw [FrameCipher.toNat_add_one hn]; omega
      rw [← hnext]
      exact ih ho

/-- An end that has opened as many frames opens what is sealed from there on. -/
theorem Outflow.opens (hs : suite.Seals) (h : Outflow suite key n out) (party : Party) {c : FrameCipher}
    (hkey : c.receiveKey = key) (hn : c.received = n) :
    ∃ c', (⟨party, .encrypted c⟩ : Session).each (openFrame suite) ((veiled out).map (·.frame)) =
        (⟨party, .encrypted c'⟩, (veiled out).map fun o => .ok o.message) ∧
      c'.receiveKey = key ∧ c'.received.toNat = n.toNat + (veiled out).length := by
  induction h generalizing c with
  | nil n => exact ⟨c, rfl, hkey, congrArg UInt64.toNat hn⟩
  | clear o hkind _ _ ih =>
    rw [veiled_cons_clear hkind]
    exact ih hkey hn
  | @sealed n out o hkind hlt hframe _ ih =>
    subst hkey hn
    obtain ⟨c', heach, hkey', hreceived⟩ := @ih { c with received := c.received + 1 } rfl rfl
    have hopen : (⟨party, .encrypted c⟩ : Session).openFrame suite o.frame =
        (⟨party, .encrypted { c with received := c.received + 1 }⟩, .ok o.message) := by
      rw [Wire.openFrame_of_encrypted, hframe, FrameCipher.openFrame_sealed hs hlt]
    rw [veiled_cons_sealed hkind, List.map_cons, List.map_cons, each, hopen, heach, List.length_cons]
    refine ⟨c', rfl, hkey', ?_⟩
    rw [hreceived, FrameCipher.toNat_add_one hlt, Nat.add_assoc, Nat.add_comm 1]

end

/-! ## The far end -/

theorem InStep.outflow_opens (hs : suite.Seals) {sender receiver : Session} {c : FrameCipher} {out : List Outgoing}
    (hsender : sender.phase = .encrypted c) (h : InStep sender receiver c.sent.toNat)
    (hout : Outflow suite c.sendKey c.sent out) :
    ∃ party c', receiver.each (openFrame suite) ((veiled out).map (·.frame)) =
        (⟨party, .encrypted c'⟩, (veiled out).map fun o => .ok o.message) ∧
      c'.receiveKey = c.sendKey ∧ c'.received.toNat = c.sent.toNat + (veiled out).length := by
  obtain ⟨c₁, c₂, hphase, hreceiver, hkey, -, hreceived⟩ := h.ciphers
  cases hsender.symm.trans hphase
  obtain ⟨party, phase⟩ := receiver
  obtain rfl : phase = .encrypted c₂ := hreceiver
  exact ⟨party, hout.opens hs party hkey.symm (UInt64.toNat_inj.1 hreceived)⟩

/-- From when a session is encrypted until it fails, whatever is done to it:
every frame that it lets out is sealed under its send key and the next number,
unless the packet is one of those that travel in the clear, which is let out as
it is and leaves the session as it was. Nothing else is refused but for want of a
number. No sealed frame is its packet, and an end in step with the session opens
all of them, in order. -/
theorem outgoing_run (suite : CipherSuite) {s : Session} {c : FrameCipher} (h : s.phase = .encrypted c)
    (ops : List Op) :
    let out := s.outgoingIn suite ops
    let later := s.run suite ops
    (∀ o ∈ out, o.kind.travelsInClear = true → o.frame = o.message) ∧
      (∀ i o, (veiled out)[i]? = some o → c.sent.toNat + i + 1 < UInt64.size ∧
        o.frame = suite.sealed c.sendKey (.ofCounter (.ofNat (c.sent.toNat + i))) [] o.message) ∧
      (later.state ≠ .failed → ∀ kind message,
        (kind.travelsInClear = true → later.sealFrame suite kind message = (later, .ok message)) ∧
          ∀ e, (later.sealFrame suite kind message).2 = .error e →
            e = .crypto .sendCounterExhausted ∧ c.sent.toNat + (veiled out).length + 1 = UInt64.size) ∧
      (suite.Seals → (∀ o ∈ veiled out, o.frame ≠ o.message) ∧
        ∀ receiver, InStep s receiver c.sent.toNat →
          let far := receiver.each (openFrame suite) ((veiled out).map (·.frame))
          (far.2 = (veiled out).map fun o => .ok o.message) ∧ far.1.state = .encrypted ∧
            (later.state ≠ .failed → InStep later far.1 (c.sent.toNat + (veiled out).length))) := by
  obtain ⟨party, phase⟩ := s
  obtain rfl : phase = .encrypted c := h
  intro out later
  have hout : Outflow suite c.sendKey c.sent out := outflow_run suite party c ops
  have hlater : later.state = .failed ∨ ∃ c', later = ⟨party, .encrypted c'⟩ ∧ c'.sendKey = c.sendKey ∧
      c'.sent.toNat = c.sent.toNat + (veiled out).length := run_encrypted suite party c ops
  refine ⟨fun o ho => hout.frame_of_clear ho, fun i o => hout.frame_of_veiled, fun hlive kind message => ?_,
    fun hs => ⟨fun o ho hsame => ?_, fun receiver hstep => ?_⟩⟩
  · obtain ⟨c', heq, -, hsent⟩ := hlater.resolve_left hlive
    rw [heq]
    refine ⟨fun hkind => sealFrame_of_clear suite party c' hkind message, fun e he => ?_⟩
    obtain ⟨rfl, hnone⟩ := of_sealFrame_error he
    have hlt : c'.sent.toNat < UInt64.size := c'.sent.toNat_lt
    exact ⟨rfl, by omega⟩
  · obtain ⟨i, hi⟩ := List.mem_iff_getElem?.1 ho
    have hlength := congrArg List.length ((hout.frame_of_veiled hi).2.symm.trans hsame)
    rw [hs.length_sealed] at hlength
    omega
  · obtain ⟨party', c₂, heach, hkey, hreceived⟩ := hstep.outflow_opens hs rfl hout
    intro far
    have hfar : far = _ := heach
    rw [hfar]
    refine ⟨rfl, rfl, fun hlive => ?_⟩
    obtain ⟨c', heq, hkey', hsent⟩ := hlater.resolve_left hlive
    rw [heq]
    exact ⟨c', c₂, rfl, rfl, hkey'.trans hkey.symm, hsent, hreceived⟩

/-- A kiosk announces itself again, in the clear, between two requests. -/
def announced : List Op :=
  [.sealFrame .requestData [1, 2], .sealFrame .handShake (Packet.handShake ⟨"front"⟩).encode,
    .sealFrame .requestData [3, 4]]

def kioskCipher : FrameCipher := ⟨.replicate 32 1, .replicate 32 2, 5, 0⟩

def serverEnd : Session :=
  ⟨.server (.replicate 32 9) (some "front"), .encrypted ⟨.replicate 32 2, .replicate 32 1, 0, 5⟩⟩

/-- What it announces is no sealed form of anything, and the server fails on it. -/
theorem announcement_in_clear :
    let s : Session := ⟨.client "front", .encrypted kioskCipher⟩
    let message := (Packet.handShake ⟨"front"⟩).encode
    InStep s serverEnd 5 ∧ s.sealFrame .standard .handShake message = (s, .ok message) ∧
      (∀ key nonce, message ≠ CipherSuite.standard.sealed key nonce [] message) ∧
      (serverEnd.openFrame .standard message).1.state = .failed := by
  refine ⟨⟨_, _, rfl, rfl, rfl, rfl, rfl⟩, rfl, fun key nonce hsame => ?_, by decide +kernel⟩
  have hlength := congrArg List.length hsame
  rw [CipherSuite.standard_seals.length_sealed] at hlength
  omega

theorem outgoing_run_announced :
    let s : Session := ⟨.client "front", .encrypted kioskCipher⟩
    let out := veiled (s.outgoingIn .standard announced)
    s.phase = .encrypted kioskCipher ∧ InStep s serverEnd 5 ∧ out.map (·.message) = [[1, 2], [3, 4]] ∧
      (serverEnd.each (openFrame .standard) (out.map (·.frame))).2 = [.ok [1, 2], .ok [3, 4]] ∧
      (s.run .standard announced).sealFrame .standard .hello [6] = (s.run .standard announced, .ok [6]) := by
  intro s out
  obtain ⟨-, -, hlater, hseals⟩ := outgoing_run .standard (rfl : s.phase = .encrypted kioskCipher) announced
  have hstep : InStep s serverEnd 5 := ⟨_, _, rfl, rfl, rfl, rfl, rfl⟩
  have hmessages : out.map (·.message) = [[1, 2], [3, 4]] := by decide +kernel
  have hread := congrArg (List.map fun m => (.ok m : Except SessionError Bytes)) hmessages
  rw [List.map_map] at hread
  exact ⟨rfl, hstep, hmessages, ((hseals CipherSuite.standard_seals).2 serverEnd hstep).1.trans hread,
    (hlater (by decide +kernel) .hello [6]).1 rfl⟩

end OrderDesk.Session
