import OrderDesk.Proofs.Session.Duplex

/-!
# A network that interferes

Two sessions have shaken hands, and the network delivers to each end whatever
frames it likes. A frame opens only if it was sealed under the key and the
nonce under which the end tries it. Then each end opens the messages of the
other in order up to the first frame that is not the next one, and nothing
after it.
-/

namespace OrderDesk

theorem Side.other_ne (side : Side) : side.other ≠ side := by cases side <;> decide

theorem Side.eq_other_of_ne {a b : Side} (h : a ≠ b) : a = b.other := by
  cases a <;> cases b <;> first | rfl | exact absurd rfl h

namespace Session

/-- A message with the frame it was sealed into. -/
structure Sealing where
  key : Key
  nonce : Nonce
  message : Bytes
  frame : Bytes
  deriving DecidableEq, Repr

/-- Two sessions with what each has sealed and what became of the frames that
were delivered to it. -/
structure Wire where
  session : Side → Session
  sealings : Side → List Sealing
  opened : Side → List (Except SessionError Bytes)

namespace Wire

def start (atClient atServer : Session) : Wire where
  session
    | .client => atClient
    | .server => atServer
  sealings _ := []
  opened _ := []

inductive Move
  | send (side : Side) (kind : PacketKind) (message : Bytes)
  | deliver (side : Side) (frame : Bytes)

/-- What a session seals when it is to send a message: nothing if it refuses
or lets the message out in the clear. -/
def sealing (s : Session) (kind : PacketKind) (message : Bytes) (outcome : Except SessionError Bytes) : List Sealing :=
  match s.cipher?, outcome with
  | some c, .ok frame => if kind.travelsInClear then [] else [⟨c.sendKey, .ofCounter c.sent, message, frame⟩]
  | _, _ => []

variable (suite : CipherSuite)

def step (w : Wire) : Move → Wire
  | .send side kind message =>
    let (s, outcome) := (w.session side).sealFrame suite kind message
    { w with
      session := Function.update w.session side s
      sealings := Function.update w.sealings side (w.sealings side ++ sealing (w.session side) kind message outcome) }
  | .deliver side frame =>
    let (s, outcome) := (w.session side).openFrame suite frame
    { w with
      session := Function.update w.session side s
      opened := Function.update w.opened side (w.opened side ++ [outcome]) }

def run (w : Wire) (moves : List Move) : Wire := moves.foldl (step suite) w

def messages (w : Wire) (side : Side) : List Bytes := (w.sealings side).map (·.message)

/-! ## The network -/

def Sealed (w : Wire) (key : Key) (nonce : Nonce) (frame : Bytes) : Prop :=
  ∃ side, ∃ s ∈ w.sealings side, s.key = key ∧ s.nonce = nonce ∧ s.frame = frame

/-- A frame that opens at an end was sealed under the key and the nonce under
which that end tries it. -/
def Authentic (w : Wire) (side : Side) (frame : Bytes) : Prop :=
  ∀ c ∈ (w.session side).cipher?, (suite.unsealed? c.receiveKey (.ofCounter c.received) [] frame).isSome →
    w.Sealed c.receiveKey (.ofCounter c.received) frame

/-- The network forges nothing. -/
def Unforged (w : Wire) : List Move → Prop
  | [] => True
  | .send side kind message :: moves => Unforged (w.step suite (.send side kind message)) moves
  | .deliver side frame :: moves => w.Authentic suite side frame ∧ Unforged (w.step suite (.deliver side frame)) moves

/-- The frame is not the next one that the other end has sealed. -/
def Deviates (w : Wire) (side : Side) (frame : Bytes) : Prop :=
  ((w.sealings side.other)[(w.opened side).length]?).map (·.frame) ≠ some frame

end Wire

end Session

namespace FrameCipher

variable (suite : CipherSuite) (key : Key)

theorem sealFrame_exhausted (side : Side) {n : Nat} (m : Nat) (h : n + 1 = UInt64.size) (message : Bytes) :
    (reached suite key side n m).sealFrame suite message = .error (.crypto .sendCounterExhausted) := by
  have hn : (UInt64.ofNat n).toNat = n := UInt64.toNat_ofNat_of_lt' (by omega)
  have hnone : succ? (.ofNat n) = none := by
    unfold succ?
    rw [hn, if_neg (by omega)]
  simp [sealFrame, reached, hnone]

theorem openFrame_of_unsealed?_eq_none {c : FrameCipher} {frame : Bytes}
    (h : suite.unsealed? c.receiveKey (.ofCounter c.received) [] frame = none) :
    ∃ e, c.openFrame suite frame = .error e := by
  unfold openFrame
  split
  · exact ⟨_, rfl⟩
  · rw [h]
    exact ⟨_, rfl⟩

end FrameCipher

namespace Session

namespace Wire

variable {suite : CipherSuite} {key : Key} {party : Side → Party} {side : Side} {w : Wire}

/-! ## What a side has sealed -/

def sealingAt (suite : CipherSuite) (key : Key) (side : Side) (n : Nat) (message : Bytes) : Sealing :=
  ⟨FrameCipher.frameKey suite key side, .ofCounter (.ofNat n), message, FrameCipher.frame suite key side n message⟩

def KeysApart (suite : CipherSuite) (key : Key) : Prop :=
  ∀ side, FrameCipher.frameKey suite key side ≠ FrameCipher.frameKey suite key side.other

theorem keysApart_of_ne (h : FrameCipher.frameKey suite key .client ≠ FrameCipher.frameKey suite key .server) :
    KeysApart suite key := by
  intro side
  cases side with
  | client => exact h
  | server => exact h.symm

/-- Each message was sealed under its own number, and the numbers are not used
up. -/
structure Numbered (suite : CipherSuite) (key : Key) (side : Side) (ss : List Sealing) : Prop where
  length_lt : ss.length < UInt64.size
  sealed : ∀ n s, ss[n]? = some s → s = sealingAt suite key side n s.message

theorem numbered_nil : Numbered suite key side [] := ⟨by decide, nofun⟩

theorem Numbered.append {ss : List Sealing} (h : Numbered suite key side ss) (message : Bytes)
    (hlt : ss.length + 1 < UInt64.size) :
    Numbered suite key side (ss ++ [sealingAt suite key side ss.length message]) := by
  constructor
  · simpa using hlt
  · intro n s hs
    by_cases hn : n < ss.length
    · rw [List.getElem?_append_left hn] at hs
      exact h.sealed n s hs
    · rw [List.getElem?_append_right (by omega), List.getElem?_singleton] at hs
      split at hs
      · next h0 =>
        cases hs
        obtain rfl : n = ss.length := by omega
        rfl
      · cases hs

theorem Numbered.eq_of_nonce {ss : List Sealing} (h : Numbered suite key side ss) {s : Sealing} (hs : s ∈ ss) {n : Nat}
    (hn : n < UInt64.size) (hnonce : s.nonce = .ofCounter (.ofNat n)) : ss[n]? = some s := by
  obtain ⟨i, hi, rfl⟩ := List.getElem_of_mem hs
  have hsome : ss[i]? = some ss[i] := List.getElem?_eq_getElem hi
  have hsealed := h.sealed i _ hsome
  have hcounter : UInt64.ofNat i = .ofNat n := by
    rw [hsealed] at hnonce
    exact Nonce.ofCounter_inj.1 hnonce
  have hi' : (UInt64.ofNat i).toNat = i := UInt64.toNat_ofNat_of_lt' (Nat.lt_trans hi h.length_lt)
  have hn' : (UInt64.ofNat n).toNat = n := UInt64.toNat_ofNat_of_lt' hn
  have hin : i = n := by rw [← hi', ← hn', hcounter]
  rw [← hin]
  exact hsome

/-! ## The two ends -/

/-- Every frame so far was the next one of the other end, and opened. -/
structure Intact (suite : CipherSuite) (key : Key) (party : Side → Party) (w : Wire) (side : Side) : Prop where
  session : w.session side =
    ⟨party side, .encrypted (.reached suite key side (w.sealings side).length (w.opened side).length)⟩
  le : (w.opened side).length ≤ (w.sealings side.other).length
  opened : w.opened side = ((w.messages side.other).take (w.opened side).length).map .ok

/-- The session has failed over a frame; what opened before were the first
messages of the other end. -/
structure Broken (party : Side → Party) (w : Wire) (side : Side) : Prop where
  session : w.session side = ⟨party side, .failed⟩
  opened : ∃ (n : Nat) (errors : List SessionError), n ≤ (w.sealings side.other).length ∧
    w.opened side = ((w.messages side.other).take n).map .ok ++ errors.map .error

structure Sound (suite : CipherSuite) (key : Key) (party : Side → Party) (w : Wire) : Prop where
  numbered : ∀ side, Numbered suite key side (w.sealings side)
  ends : ∀ side, Intact suite key party w side ∨ Broken party w side

theorem take_messages_append (ss ss' : List Sealing) {n : Nat} (h : n ≤ ss.length) :
    ((ss ++ ss').map (·.message)).take n = (ss.map (·.message)).take n := by
  rw [List.map_append, List.take_append_of_le_length (by simpa using h)]

-- neither end minds what the other seals
theorem Intact.grow (h : Intact suite key party w side) {w' : Wire} (hsession : w'.session side = w.session side)
    (hopened : w'.opened side = w.opened side) (hown : w'.sealings side = w.sealings side) {ss : List Sealing}
    (hother : w'.sealings side.other = w.sealings side.other ++ ss) : Intact suite key party w' side := by
  constructor
  · rw [hsession, hown, hopened]
    exact h.session
  · have hle := h.le
    rw [hopened, hother, List.length_append]
    omega
  · rw [hopened, messages, hother, take_messages_append _ _ h.le]
    exact h.opened

theorem Broken.grow (h : Broken party w side) {w' : Wire} (hsession : w'.session side = w.session side)
    (hopened : w'.opened side = w.opened side) {ss : List Sealing}
    (hother : w'.sealings side.other = w.sealings side.other ++ ss) : Broken party w' side := by
  obtain ⟨n, errors, hle, he⟩ := h.opened
  refine ⟨hsession.trans h.session, n, errors, ?_, ?_⟩
  · rw [hother, List.length_append]
    omega
  · rw [hopened, messages, hother, take_messages_append _ _ hle]
    exact he

theorem Intact.state_eq (h : Intact suite key party w side) : (w.session side).state = .encrypted := by
  rw [h.session]
  rfl

/-! ## Sending -/

theorem sealFrame_of_failed (suite : CipherSuite) {s : Session} (h : s.phase = .failed) (kind : PacketKind)
    (message : Bytes) : ∃ e, s.sealFrame suite kind message = (s, .error e) := by
  simp [sealFrame, checkAllowed, allows, state, h, Phase.state]

theorem sealFrame_of_encrypted (suite : CipherSuite) (p : Party) (c : FrameCipher) (kind : PacketKind)
    (message : Bytes) :
    (⟨p, .encrypted c⟩ : Session).sealFrame suite kind message =
      if kind.travelsInClear then (⟨p, .encrypted c⟩, .ok message)
      else
        match c.sealFrame suite message with
        | .error e => (⟨p, .encrypted c⟩, .error e)
        | .ok (frame, c) => (⟨p, .encrypted c⟩, .ok frame) := by
  have hallowed : (⟨p, .encrypted c⟩ : Session).checkAllowed kind = .ok () := by
    simp [checkAllowed, allows, isEncrypted, state, Phase.state]
  simp only [sealFrame, hallowed, cipher?]
  split
  · rfl
  · cases c.sealFrame suite message <;> rfl

theorem step_send_of_refused {kind : PacketKind} {message : Bytes} {outcome : Except SessionError Bytes}
    (hs : (w.session side).sealFrame suite kind message = (w.session side, outcome))
    (hnone : sealing (w.session side) kind message outcome = []) :
    w.step suite (.send side kind message) = w := by
  simp [step, hs, hnone]

-- nothing changes if the side has failed, its numbers are used up or the
-- message goes in the clear
theorem step_send_cases (hw : Sound suite key party w) (side : Side) (kind : PacketKind) (message : Bytes) :
    w.step suite (.send side kind message) = w ∨
      Intact suite key party w side ∧ (w.sealings side).length + 1 < UInt64.size ∧
        w.step suite (.send side kind message) =
          { w with
            session := Function.update w.session side ⟨party side, .encrypted
              (.reached suite key side ((w.sealings side).length + 1) (w.opened side).length)⟩
            sealings := Function.update w.sealings side
              (w.sealings side ++ [sealingAt suite key side (w.sealings side).length message]) } := by
  rcases hw.ends side with hin | hbr
  · have hframe := sealFrame_of_encrypted suite (party side)
      (.reached suite key side (w.sealings side).length (w.opened side).length) kind message
    by_cases hclear : kind.travelsInClear
    · left
      rw [if_pos hclear, ← hin.session] at hframe
      exact step_send_of_refused hframe (by simp [sealing, hin.session, cipher?, hclear])
    · rw [if_neg hclear, ← hin.session] at hframe
      by_cases hlt : (w.sealings side).length + 1 < UInt64.size
      · right
        rw [FrameCipher.sealFrame_reached suite key side _ hlt message] at hframe
        refine ⟨hin, hlt, ?_⟩
        have hone : sealing (w.session side) kind message
            (.ok (FrameCipher.frame suite key side (w.sealings side).length message)) =
            [sealingAt suite key side (w.sealings side).length message] := by
          simp [sealing, hin.session, cipher?, hclear, sealingAt, FrameCipher.reached, FrameCipher.start]
        simp [step, hframe, hone]
      · left
        have hfull : (w.sealings side).length + 1 = UInt64.size := by
          have := (hw.numbered side).length_lt
          omega
        rw [FrameCipher.sealFrame_exhausted suite key side _ hfull message] at hframe
        exact step_send_of_refused hframe (by simp [sealing, hin.session, cipher?])
  · left
    have hfailed : (w.session side).phase = .failed := congrArg Session.phase hbr.session
    obtain ⟨e, he⟩ := sealFrame_of_failed suite hfailed kind message
    exact step_send_of_refused he (by simp [sealing, hbr.session, cipher?])

theorem Numbered.send (hw : Sound suite key party w) (sender side : Side) (kind : PacketKind) (message : Bytes) :
    Numbered suite key side ((w.step suite (.send sender kind message)).sealings side) := by
  rcases step_send_cases hw sender kind message with hsame | ⟨-, hlt, hstep⟩
  · rw [hsame]
    exact hw.numbered side
  · rw [hstep]
    by_cases hside : side = sender
    · subst hside
      simpa using (hw.numbered side).append message hlt
    · simpa [hside] using hw.numbered side

theorem Intact.send (hin : Intact suite key party w side) (hw : Sound suite key party w) (sender : Side)
    (kind : PacketKind) (message : Bytes) :
    Intact suite key party (w.step suite (.send sender kind message)) side := by
  rcases step_send_cases hw sender kind message with hsame | ⟨-, -, hstep⟩
  · rw [hsame]
    exact hin
  · rw [hstep]
    by_cases hside : side = sender
    · subst hside
      constructor
      · simp
      · simpa [side.other_ne] using hin.le
      · simpa [messages, side.other_ne] using hin.opened
    · have hother : sender = side.other := Side.eq_other_of_ne (Ne.symm hside)
      subst hother
      exact hin.grow (by simp [hside]) rfl (by simp [hside]) (Function.update_self ..)

theorem Broken.send (hbr : Broken party w side) (hw : Sound suite key party w) (sender : Side) (kind : PacketKind)
    (message : Bytes) : Broken party (w.step suite (.send sender kind message)) side := by
  rcases step_send_cases hw sender kind message with hsame | ⟨hin, -, hstep⟩
  · rw [hsame]
    exact hbr
  · have hside : side ≠ sender := by
      intro hsame
      subst hsame
      cases hbr.session.symm.trans hin.session
    have hother : sender = side.other := Side.eq_other_of_ne (Ne.symm hside)
    subst hother
    rw [hstep]
    exact hbr.grow (by simp [hside]) rfl (Function.update_self ..)

theorem Sound.send (hw : Sound suite key party w) (sender : Side) (kind : PacketKind) (message : Bytes) :
    Sound suite key party (w.step suite (.send sender kind message)) where
  numbered side := .send hw sender side kind message
  ends side := (hw.ends side).imp (·.send hw sender kind message) (·.send hw sender kind message)

/-! ## Delivering -/

theorem openFrame_of_failed (suite : CipherSuite) {s : Session} (h : s.phase = .failed) (frame : Bytes) :
    ∃ e, s.openFrame suite frame = (s, .error e) := by
  simp [openFrame, state, h, Phase.state]

theorem openFrame_of_encrypted (suite : CipherSuite) (p : Party) (c : FrameCipher) (frame : Bytes) :
    (⟨p, .encrypted c⟩ : Session).openFrame suite frame =
      match c.openFrame suite frame with
      | .error e => (⟨p, .failed⟩, .error e)
      | .ok (message, c) => (⟨p, .encrypted c⟩, .ok message) := by
  have hlive : ¬ (⟨p, .encrypted c⟩ : Session).state = .failed := by simp [state, Phase.state]
  simp only [openFrame, if_neg hlive, cipher?]
  cases c.openFrame suite frame <;> rfl

-- what was sealed under this key and this number is the next frame, for the
-- other direction has another key
theorem Intact.unsealed?_eq_none (hin : Intact suite key party w side) (hw : Sound suite key party w)
    (hkeys : KeysApart suite key) {frame : Bytes}
    (hauth : w.Authentic suite side frame) (hdev : w.Deviates side frame) {c : FrameCipher}
    (hc : c = .reached suite key side (w.sealings side).length (w.opened side).length) :
    suite.unsealed? c.receiveKey (.ofCounter c.received) [] frame = none := by
  apply Option.eq_none_iff_forall_ne_some.2
  intro message hmessage
  have hcipher : (w.session side).cipher? = some c := by simp [hin.session, cipher?, hc]
  obtain ⟨sender, s, hs, hkey, hnonce, hframe⟩ := hauth c hcipher (Option.isSome_iff_exists.2 ⟨message, hmessage⟩)
  subst hc
  obtain ⟨i, hi, rfl⟩ := List.getElem_of_mem hs
  have hsealed := (hw.numbered sender).sealed i _ (List.getElem?_eq_getElem hi)
  have hsender : sender = side.other := by
    apply Side.eq_other_of_ne
    intro hsame
    subst hsame
    rw [hsealed] at hkey
    exact hkeys sender hkey
  subst hsender
  have hlt : (w.opened side).length < UInt64.size := Nat.lt_of_le_of_lt hin.le (hw.numbered side.other).length_lt
  have hnext := (hw.numbered side.other).eq_of_nonce hs hlt hnonce
  apply hdev
  rw [hnext, Option.map_some, hframe]

def Fails (suite : CipherSuite) (party : Side → Party) (w : Wire) (side : Side) (frame : Bytes) : Prop :=
  ∃ e, w.step suite (.deliver side frame) =
    { w with
      session := Function.update w.session side ⟨party side, .failed⟩
      opened := Function.update w.opened side (w.opened side ++ [.error e]) }

theorem Intact.fails (hin : Intact suite key party w side) (hw : Sound suite key party w)
    (hkeys : KeysApart suite key) {frame : Bytes}
    (hauth : w.Authentic suite side frame) (hdev : w.Deviates side frame) : Fails suite party w side frame := by
  obtain ⟨e, he⟩ := FrameCipher.openFrame_of_unsealed?_eq_none suite (hin.unsealed?_eq_none hw hkeys hauth hdev rfl)
  have hframe := openFrame_of_encrypted suite (party side)
    (.reached suite key side (w.sealings side).length (w.opened side).length) frame
  rw [he, ← hin.session] at hframe
  exact ⟨e, by simp [step, hframe]⟩

theorem fails_of_failed (suite : CipherSuite) (h : w.session side = ⟨party side, .failed⟩) (frame : Bytes) :
    Fails suite party w side frame := by
  obtain ⟨e, he⟩ := openFrame_of_failed suite (s := ⟨party side, .failed⟩) rfl frame
  exact ⟨e, by simp [step, h, he]⟩

theorem Fails.broken {frame : Bytes} (h : Fails suite party w side frame) (hw : Sound suite key party w) :
    Broken party (w.step suite (.deliver side frame)) side := by
  obtain ⟨e, hstep⟩ := h
  rw [hstep]
  constructor
  · simp
  · rcases hw.ends side with hin | hbr
    · refine ⟨(w.opened side).length, [e], hin.le, ?_⟩
      have hopened := hin.opened
      simp only [Function.update_self, messages] at hopened ⊢
      rw [← hopened]
      rfl
    · obtain ⟨n, errors, hle, he⟩ := hbr.opened
      exact ⟨n, errors ++ [e], hle, by simp [he, messages]⟩

theorem step_deliver_next (hs : suite.Seals) (hw : Sound suite key party w) (hin : Intact suite key party w side)
    {frame : Bytes} (hnext : ¬ w.Deviates side frame) :
    ∃ message, (w.messages side.other)[(w.opened side).length]? = some message ∧
      w.step suite (.deliver side frame) =
        { w with
          session := Function.update w.session side ⟨party side, .encrypted
            (.reached suite key side (w.sealings side).length ((w.opened side).length + 1))⟩
          opened := Function.update w.opened side (w.opened side ++ [.ok message]) } := by
  obtain ⟨s, hget, rfl⟩ := Option.map_eq_some_iff.1 (Classical.not_not.1 hnext)
  have hlt : (w.opened side).length < (w.sealings side.other).length := (List.getElem?_eq_some_iff.1 hget).1
  have hsealed := (hw.numbered side.other).sealed _ _ hget
  have hopen := FrameCipher.openFrame_reached suite key hs side (w.sealings side).length
    (m := (w.opened side).length) (Nat.lt_of_le_of_lt hlt (hw.numbered side.other).length_lt) s.message
  have hframe := openFrame_of_encrypted suite (party side)
    (.reached suite key side (w.sealings side).length (w.opened side).length)
    (FrameCipher.frame suite key side.other (w.opened side).length s.message)
  rw [hopen, ← hin.session] at hframe
  refine ⟨s.message, by simp [messages, hget], ?_⟩
  have hs' : s.frame = FrameCipher.frame suite key side.other (w.opened side).length s.message :=
    congrArg Sealing.frame hsealed
  simp only [step, hs', hframe]

theorem Intact.next (hs : suite.Seals) (hw : Sound suite key party w) (hin : Intact suite key party w side)
    {frame : Bytes} (hnext : ¬ w.Deviates side frame) :
    Intact suite key party (w.step suite (.deliver side frame)) side := by
  obtain ⟨message, hget, hstep⟩ := step_deliver_next hs hw hin hnext
  have hlt : (w.opened side).length + 1 ≤ (w.sealings side.other).length := by
    have hlength := (List.getElem?_eq_some_iff.1 hget).1
    rwa [messages, List.length_map] at hlength
  rw [hstep]
  constructor
  · simp
  · simpa using hlt
  · have hmessages : ∀ session opened, messages ⟨session, w.sealings, opened⟩ side.other = w.messages side.other :=
      fun _ _ => rfl
    simp only [Function.update_self, hmessages, List.length_append, List.length_singleton, List.take_add_one, hget,
      List.map_append]
    rw [← hin.opened]
    rfl

-- a delivery leaves alone what was sealed, and the other end
theorem step_deliver_frame (suite : CipherSuite) (w : Wire) (receiver : Side) (frame : Bytes) :
    (w.step suite (.deliver receiver frame)).sealings = w.sealings ∧
      ∀ side, side ≠ receiver → (w.step suite (.deliver receiver frame)).session side = w.session side ∧
        (w.step suite (.deliver receiver frame)).opened side = w.opened side := by
  refine ⟨rfl, fun side hside => ?_⟩
  simp [step, hside]

theorem Intact.deliver (hs : suite.Seals) (hin : Intact suite key party w side) (hw : Sound suite key party w)
    {receiver : Side} {frame : Bytes} (hnext : side = receiver → ¬ w.Deviates side frame) :
    Intact suite key party (w.step suite (.deliver receiver frame)) side := by
  by_cases hside : side = receiver
  · subst hside
    exact hin.next hs hw (hnext rfl)
  · obtain ⟨hsealings, hsame⟩ := step_deliver_frame suite w receiver frame
    obtain ⟨hsession, hopened⟩ := hsame side hside
    exact hin.grow hsession hopened (congrFun hsealings _) (by rw [hsealings, List.append_nil])

theorem Broken.deliver (hbr : Broken party w side) (hw : Sound suite key party w) (receiver : Side) (frame : Bytes) :
    Broken party (w.step suite (.deliver receiver frame)) side := by
  by_cases hside : side = receiver
  · subst hside
    exact (fails_of_failed suite hbr.session frame).broken hw
  · obtain ⟨hsealings, hsame⟩ := step_deliver_frame suite w receiver frame
    obtain ⟨hsession, hopened⟩ := hsame side hside
    exact hbr.grow hsession hopened (by rw [hsealings, List.append_nil])

theorem Sound.deliver (hs : suite.Seals) (hw : Sound suite key party w)
    (hkeys : KeysApart suite key) {receiver : Side}
    {frame : Bytes} (hauth : w.Authentic suite receiver frame) :
    Sound suite key party (w.step suite (.deliver receiver frame)) := by
  constructor
  · exact hw.numbered
  · intro side
    rcases hw.ends side with hin | hbr
    · by_cases hdev : side = receiver ∧ w.Deviates side frame
      · obtain ⟨rfl, hdev⟩ := hdev
        exact .inr ((hin.fails hw hkeys hauth hdev).broken hw)
      · exact .inl (hin.deliver hs hw fun hside hdev' => hdev ⟨hside, hdev'⟩)
    · exact .inr (hbr.deliver hw receiver frame)

/-! ## Runs -/

theorem Sound.run (hs : suite.Seals) (hkeys : KeysApart suite key)
    (hw : Sound suite key party w) {moves : List Move} (hmoves : w.Unforged suite moves) :
    Sound suite key party (w.run suite moves) := by
  induction moves generalizing w with
  | nil => exact hw
  | cons m moves ih =>
    cases m with
    | send sender kind message => exact ih (hw.send sender kind message) hmoves
    | deliver receiver frame => exact ih (hw.deliver hs hkeys hmoves.1) hmoves.2

theorem Intact.run (hs : suite.Seals) (hkeys : KeysApart suite key)
    (hin : Intact suite key party w side) (hw : Sound suite key party w) {moves : List Move}
    (hmoves : w.Unforged suite moves)
    (hnext : ∀ ms frame, ms ++ [.deliver side frame] <+: moves → ¬ (w.run suite ms).Deviates side frame) :
    Intact suite key party (w.run suite moves) side := by
  induction moves generalizing w with
  | nil => exact hin
  | cons m moves ih =>
    have hnext' : ∀ ms frame, ms ++ [.deliver side frame] <+: moves →
        ¬ ((w.step suite m).run suite ms).Deviates side frame := by
      intro ms frame hms
      exact hnext (m :: ms) frame (List.cons_prefix_cons.2 ⟨rfl, hms⟩)
    cases m with
    | send sender kind message => exact ih (hin.send hw sender kind message) (hw.send sender kind message) hmoves hnext'
    | deliver receiver frame =>
      have hfirst : side = receiver → ¬ w.Deviates side frame := by
        intro hside
        subst hside
        exact hnext [] frame (List.cons_prefix_cons.2 ⟨rfl, List.nil_prefix⟩)
      exact ih (hin.deliver hs hw hfirst) (hw.deliver hs hkeys hmoves.1) hmoves.2 hnext'

theorem unforged_append {moves moves' : List Move} (h : w.Unforged suite (moves ++ moves')) :
    w.Unforged suite moves ∧ (w.run suite moves).Unforged suite moves' := by
  induction moves generalizing w with
  | nil => exact ⟨trivial, h⟩
  | cons m moves ih =>
    cases m with
    | send sender kind message => exact ih h
    | deliver receiver frame => exact ⟨⟨h.1, (ih h.2).1⟩, (ih h.2).2⟩

theorem run_append (w : Wire) (moves moves' : List Move) :
    w.run suite (moves ++ moves') = (w.run suite moves).run suite moves' :=
  List.foldl_append

theorem failed_step (suite : CipherSuite) (h : w.session side = ⟨party side, .failed⟩) (m : Move) :
    (w.step suite m).session side = ⟨party side, .failed⟩ ∧
      ∃ errors : List SessionError, (w.step suite m).opened side = w.opened side ++ errors.map .error := by
  cases m with
  | send sender kind message =>
    refine ⟨?_, [], by simp [step]⟩
    by_cases hside : side = sender
    · subst hside
      obtain ⟨e, he⟩ := sealFrame_of_failed suite (s := ⟨party side, .failed⟩) rfl kind message
      simp [step, h, he]
    · simp [step, hside, h]
  | deliver receiver frame =>
    by_cases hside : side = receiver
    · subst hside
      obtain ⟨e, hstep⟩ := fails_of_failed suite h frame
      exact ⟨by simp [hstep], [e], by simp [hstep]⟩
    · exact ⟨by simp [step, hside, h], [], by simp [step, hside]⟩

theorem failed_run (suite : CipherSuite) (h : w.session side = ⟨party side, .failed⟩) (moves : List Move) :
    (w.run suite moves).session side = ⟨party side, .failed⟩ ∧
      ∃ errors : List SessionError, (w.run suite moves).opened side = w.opened side ++ errors.map .error := by
  induction moves generalizing w with
  | nil => exact ⟨h, [], by simp [run]⟩
  | cons m moves ih =>
    obtain ⟨hfailed, errors, he⟩ := failed_step suite h m
    obtain ⟨hfailed', errors', he'⟩ := ih hfailed
    refine ⟨hfailed', errors ++ errors', ?_⟩
    have hrun : (w.run suite (m :: moves)).opened side = ((w.step suite m).run suite moves).opened side := rfl
    rw [hrun, he', he]
    simp

def openedMessages (w : Wire) (side : Side) : List Bytes := (w.opened side).filterMap (·.toOption)

theorem openedMessages_of_sound (hw : Sound suite key party w) (side : Side) :
    w.openedMessages side <+: w.messages side.other := by
  have hoks : ∀ ms : List Bytes, (ms.map .ok : List (Except SessionError Bytes)).filterMap (·.toOption) = ms := by
    intro ms
    rw [List.filterMap_map]
    exact List.filterMap_some
  have herrors : ∀ es : List SessionError,
      (es.map .error : List (Except SessionError Bytes)).filterMap (·.toOption) = [] := by
    intro es
    simp [Except.toOption]
  rcases hw.ends side with hin | hbr
  · rw [openedMessages, hin.opened, hoks]
    exact List.take_prefix _ _
  · obtain ⟨n, errors, -, he⟩ := hbr.opened
    rw [openedMessages, he, List.filterMap_append, hoks, herrors, List.append_nil]
    exact List.take_prefix _ _

/-- After a frame that deviates the session has failed and nothing opens. -/
theorem failed_of_deviating (hs : suite.Seals) (hkeys : KeysApart suite key)
    (hw : Sound suite key party w) {moves ms : List Move} (hmoves : w.Unforged suite moves) {frame : Bytes}
    (hms : ms ++ [.deliver side frame] <+: moves) (hdev : (w.run suite ms).Deviates side frame) :
    ((w.run suite moves).session side).state = .failed ∧
      ∀ r ∈ ((w.run suite moves).opened side).drop ((w.run suite ms).opened side).length, ∃ e, r = .error e := by
  obtain ⟨rest, rfl⟩ := hms
  obtain ⟨hbefore, hrest⟩ := unforged_append (unforged_append hmoves).1
  have hsound := hw.run hs hkeys hbefore
  have hfails : Fails suite party (w.run suite ms) side frame := by
    rcases hsound.ends side with hin | hbr
    · exact hin.fails hsound hkeys hrest.1 hdev
    · exact fails_of_failed suite hbr.session frame
  obtain ⟨e, hstep⟩ := hfails
  have hfailed : ((w.run suite ms).step suite (.deliver side frame)).session side = ⟨party side, .failed⟩ := by
    simp [hstep]
  obtain ⟨hlast, errors, he⟩ := failed_run suite hfailed rest
  have hrun : w.run suite (ms ++ [.deliver side frame] ++ rest) =
      ((w.run suite ms).step suite (.deliver side frame)).run suite rest := by
    rw [run_append, run_append]
    rfl
  rw [hrun, hlast, he]
  refine ⟨rfl, ?_⟩
  have hopened : ((w.run suite ms).step suite (.deliver side frame)).opened side =
      (w.run suite ms).opened side ++ [.error e] := by simp [hstep]
  rw [hopened, List.append_assoc, List.drop_left]
  intro r hr
  rcases List.mem_append.1 hr with hr | hr
  · exact ⟨e, List.mem_singleton.1 hr⟩
  · obtain ⟨e', -, rfl⟩ := List.mem_map.1 hr
    exact ⟨e', rfl⟩

/-! ## After a handshake -/

theorem sound_start (suite : CipherSuite) (key : Key) (party : Side → Party) {atClient atServer : Session}
    (hclient : atClient = ⟨party .client, .encrypted (.start suite .client key)⟩)
    (hserver : atServer = ⟨party .server, .encrypted (.start suite .server key)⟩) :
    (∀ side, Intact suite key party (start atClient atServer) side) ∧
      Sound suite key party (start atClient atServer) := by
  have hintact : ∀ side, Intact suite key party (start atClient atServer) side := by
    intro side
    refine ⟨?_, Nat.le_refl _, rfl⟩
    cases side with
    | client => exact hclient
    | server => exact hserver
  exact ⟨hintact, fun _ => numbered_nil, fun side => .inl (hintact side)⟩

instance (w : Wire) (key : Key) (nonce : Nonce) (frame : Bytes) : Decidable (w.Sealed key nonce frame) :=
  decidable_of_iff
    (∃ side ∈ [Side.client, .server], ∃ s ∈ w.sealings side, s.key = key ∧ s.nonce = nonce ∧ s.frame = frame)
    ⟨fun ⟨side, _, h⟩ => ⟨side, h⟩, fun ⟨side, h⟩ => ⟨side, by cases side <;> simp, h⟩⟩

instance (w : Wire) (side : Side) (frame : Bytes) : Decidable (w.Deviates side frame) :=
  inferInstanceAs (Decidable (_ ≠ some frame))

instance (suite : CipherSuite) (w : Wire) (side : Side) (frame : Bytes) : Decidable (w.Authentic suite side frame) :=
  inferInstanceAs (Decidable (∀ c ∈ (w.session side).cipher?, _ → w.Sealed c.receiveKey _ frame))

instance decidableUnforged (suite : CipherSuite) : (moves : List Move) → (w : Wire) → Decidable (w.Unforged suite moves)
  | [], _ => .isTrue trivial
  | .send side kind message :: moves, w => decidableUnforged suite moves (w.step suite (.send side kind message))
  | .deliver side frame :: moves, w =>
    have := decidableUnforged suite moves (w.step suite (.deliver side frame))
    inferInstanceAs (Decidable (w.Authentic suite side frame ∧ (w.step suite (.deliver side frame)).Unforged suite moves))

end Wire

open Wire

/-- Whatever the network makes of the frames of two sessions that have shaken
hands, what opens at an end is a first part of what the other has sealed: all
frames open as long as each is the next one, and none does from the first that
is not. -/
theorem shakeHands_integrity {suite : CipherSuite} (hs : suite.Seals) (clientId : String) (secret : Key)
    (clientDraws serverDraws : Draws) (now : UInt64) (ha : suite.Agrees clientDraws.rest.next secret)
    (hkeys : FrameCipher.frameKey suite clientDraws.next .client ≠
      FrameCipher.frameKey suite clientDraws.next .server) :
    ∃ atClient atServer, shakeHands suite clientId secret clientDraws serverDraws now = .ok (atClient, atServer) ∧
      ∀ moves, (Wire.start atClient atServer).Unforged suite moves → ∀ side,
        let w := (Wire.start atClient atServer).run suite moves
        w.openedMessages side <+: w.messages side.other ∧
          ((∀ ms frame, ms ++ [.deliver side frame] <+: moves →
              ¬ ((Wire.start atClient atServer).run suite ms).Deviates side frame) →
            (w.session side).state = .encrypted ∧
              w.opened side = ((w.messages side.other).take (w.opened side).length).map .ok) ∧
          ∀ ms frame, ms ++ [.deliver side frame] <+: moves →
            ((Wire.start atClient atServer).run suite ms).Deviates side frame →
            (w.session side).state = .failed ∧
              ∀ r ∈ (w.opened side).drop (((Wire.start atClient atServer).run suite ms).opened side).length,
                ∃ e, r = .error e := by
  refine ⟨_, _, shakeHands_eq hs clientId secret clientDraws serverDraws now ha, ?_⟩
  intro moves hmoves side
  have hkeys' := keysApart_of_ne hkeys
  obtain ⟨hintact, hsound⟩ := sound_start suite clientDraws.next (Duplex.parties clientId secret) rfl rfl
  refine ⟨openedMessages_of_sound (hsound.run hs hkeys' hmoves) side, ?_, ?_⟩
  · intro hnext
    have hlast := (hintact side).run hs hkeys' hsound hmoves hnext
    exact ⟨hlast.state_eq, hlast.opened⟩
  · intro ms frame hms hdev
    exact failed_of_deviating hs hkeys' hsound hmoves hms hdev

def firstFrame : Bytes := FrameCipher.frame .standard counting.next .client 0 [1]

def inOrder : List Wire.Move := [.send .client .requestData [1], .deliver .server firstFrame]

def atFront : Wire :=
  .start ⟨.client "front", .encrypted (.start .standard .client counting.next)⟩
    ⟨.server counting.rest.next (some "front"), .encrypted (.start .standard .server counting.next)⟩

-- in one evaluation, which derives the keys once
theorem replayed_counting :
    FrameCipher.frameKey .standard counting.next .client ≠ FrameCipher.frameKey .standard counting.next .server ∧
      atFront.Unforged .standard (inOrder ++ [.deliver .server firstFrame]) ∧
      (atFront.run .standard inOrder).Deviates .server firstFrame := by
  decide +kernel

theorem shakeHands_integrity_replayed :
    CipherSuite.standard.Seals ∧ CipherSuite.standard.Agrees counting.rest.next counting.rest.next ∧
      FrameCipher.frameKey .standard counting.next .client ≠ FrameCipher.frameKey .standard counting.next .server ∧
      ∃ atClient atServer,
        shakeHands .standard "front" counting.rest.next counting counting 0 = .ok (atClient, atServer) ∧
        (Wire.start atClient atServer).Unforged .standard (inOrder ++ [.deliver .server firstFrame]) ∧
        let w := (Wire.start atClient atServer).run .standard (inOrder ++ [.deliver .server firstFrame])
        w.openedMessages .server <+: w.messages .client ∧ (w.session .server).state = .failed := by
  have hagrees : CipherSuite.standard.Agrees counting.rest.next counting.rest.next := rfl
  obtain ⟨hkeys, hmoves, hreplayed⟩ := replayed_counting
  obtain ⟨atClient, atServer, hshake, hrun⟩ := shakeHands_integrity CipherSuite.standard_seals "front"
    counting.rest.next counting counting 0 hagrees hkeys
  have hends := (shakeHands_eq CipherSuite.standard_seals "front" counting.rest.next counting counting 0
    hagrees).symm.trans hshake
  injection hends with hends
  injection hends with hclient hserver
  have hstart : Wire.start atClient atServer = atFront := by
    rw [← hclient, ← hserver]
    rfl
  rw [hstart] at hrun
  obtain ⟨hopened, -, hfailed⟩ := hrun _ hmoves .server
  refine ⟨CipherSuite.standard_seals, hagrees, hkeys, atClient, atServer, hshake, ?_⟩
  rw [hstart]
  exact ⟨hmoves, hopened, (hfailed inOrder firstFrame List.prefix_rfl hreplayed).1⟩

end Session

end OrderDesk
