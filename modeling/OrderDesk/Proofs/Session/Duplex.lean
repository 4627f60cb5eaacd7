import Mathlib.Logic.Function.Basic
import OrderDesk.Proofs.Session.Handshake

/-!
# Frames in both directions

Two sessions that have shaken hands seal in any order, and the frames of each
arrive in the order in which they were sealed. The counter of a receiver is
always the number of the next frame that arrives.
-/

namespace OrderDesk

namespace FrameCipher

theorem sealFrame_of_lt (suite : CipherSuite) {c : FrameCipher} (h : c.sent.toNat + 1 < UInt64.size) (message : Bytes) :
    c.sealFrame suite message =
      .ok (suite.sealed c.sendKey (.ofCounter c.sent) [] message, { c with sent := c.sent + 1 }) := by
  have hsucc : succ? c.sent = some (c.sent + 1) := if_pos h
  rw [sealFrame, hsucc]

theorem openFrame_sealed {suite : CipherSuite} (hs : suite.Seals) {c : FrameCipher}
    (h : c.received.toNat + 1 < UInt64.size) (message : Bytes) :
    c.openFrame suite (suite.sealed c.receiveKey (.ofCounter c.received) [] message) =
      .ok (message, { c with received := c.received + 1 }) := by
  have hlength : ¬(suite.sealed c.receiveKey (.ofCounter c.received) [] message).length < tagLength := by
    simp [hs.length_sealed, tagLength]
  have hsucc : succ? c.received = some (c.received + 1) := if_pos h
  rw [openFrame, if_neg hlength, hs.unsealed?_sealed]
  simp only [hsucc]

variable (suite : CipherSuite) (key : Key)

def reached (side : Side) (sent received : Nat) : FrameCipher :=
  { start suite side key with sent := .ofNat sent, received := .ofNat received }

def frame (side : Side) (n : Nat) (message : Bytes) : Bytes :=
  suite.sealed (frameKey suite key side) (.ofCounter (.ofNat n)) [] message

theorem toNat_ofNat_add_one {n : Nat} (h : n + 1 < UInt64.size) : (UInt64.ofNat n).toNat + 1 < UInt64.size := by
  rwa [UInt64.toNat_ofNat_of_lt' (Nat.lt_of_succ_lt h)]

theorem succ?_ofNat {n : Nat} (h : n + 1 < UInt64.size) : succ? (.ofNat n) = some (.ofNat (n + 1)) := by
  have hsucc : UInt64.ofNat n + 1 = .ofNat (n + 1) := by simp
  rw [← hsucc]
  exact if_pos (toNat_ofNat_add_one h)

theorem sealFrame_reached (side : Side) {n : Nat} (m : Nat) (h : n + 1 < UInt64.size) (message : Bytes) :
    (reached suite key side n m).sealFrame suite message =
      .ok (frame suite key side n message, reached suite key side (n + 1) m) := by
  have hseal := sealFrame_of_lt suite (c := reached suite key side n m) (toNat_ofNat_add_one h) message
  simpa [reached, frame, start] using hseal

theorem openFrame_reached (hs : suite.Seals) (side : Side) (n : Nat) {m : Nat} (h : m + 1 < UInt64.size) (message : Bytes) :
    (reached suite key side n m).openFrame suite (frame suite key side.other m message) =
      .ok (message, reached suite key side n (m + 1)) := by
  have hopen := openFrame_sealed hs (c := reached suite key side n m) (toNat_ofNat_add_one h) message
  simpa [reached, frame, start] using hopen

end FrameCipher

theorem Side.other_other (side : Side) : side.other.other = side := by cases side <;> rfl

namespace Session

/-- Two sessions and the line between them, with what was sealed and opened
so far. -/
structure Duplex where
  session : Side → Session
  /-- The frames that a side has sealed and the other has not opened, the
  oldest first. -/
  flight : Side → List Bytes
  sealed : Side → List Bytes
  /-- What became of the frames of a side. -/
  opened : Side → List (Except SessionError Bytes)

namespace Duplex

def start (atClient atServer : Session) : Duplex where
  session
    | .client => atClient
    | .server => atServer
  flight _ := []
  sealed _ := []
  opened _ := []

inductive Move
  | send (side : Side) (kind : PacketKind) (message : Bytes) (h : kind.travelsInClear = false)
  | deliver (side : Side)

variable (suite : CipherSuite)

def step (d : Duplex) : Move → Duplex
  | .send side kind message _ =>
    match (d.session side).sealFrame suite kind message with
    | (s, .error _) => { d with session := Function.update d.session side s }
    | (s, .ok frame) =>
      { d with
        session := Function.update d.session side s
        flight := Function.update d.flight side (d.flight side ++ [frame])
        sealed := Function.update d.sealed side (d.sealed side ++ [message]) }
  | .deliver side =>
    match d.flight side with
    | [] => d
    | frame :: frames =>
      let (s, outcome) := (d.session side.other).openFrame suite frame
      { d with
        session := Function.update d.session side.other s
        flight := Function.update d.flight side frames
        opened := Function.update d.opened side (d.opened side ++ [outcome]) }

def run (d : Duplex) (moves : List Move) : Duplex := moves.foldl (step suite) d

def Move.messageOf? (side : Side) : Move → Option Bytes
  | .send sender _ message _ => if sender = side then some message else none
  | .deliver _ => none

def messagesOf (side : Side) (moves : List Move) : List Bytes := moves.filterMap (Move.messageOf? side)

/-! ## The invariant of a line -/

section
variable {suite : CipherSuite} {key : Key} {party : Side → Party} {side : Side} {d : Duplex}

/-- Of what a side has sealed, a first part was opened unchanged and the rest
is in flight, each frame under its own number. -/
def Line (suite : CipherSuite) (key : Key) (side : Side) (sealed : List Bytes)
    (opened : List (Except SessionError Bytes)) (flight : List Bytes) : Prop :=
  ∃ arrived waiting, sealed = arrived ++ waiting ∧ opened = arrived.map .ok ∧
    flight = waiting.mapIdx fun i => FrameCipher.frame suite key side (arrived.length + i)

theorem Line.send {sealed flight : List Bytes} {opened : List (Except SessionError Bytes)}
    (h : Line suite key side sealed opened flight) (message : Bytes) :
    Line suite key side (sealed ++ [message]) opened
      (flight ++ [FrameCipher.frame suite key side sealed.length message]) := by
  obtain ⟨arrived, waiting, rfl, rfl, rfl⟩ := h
  refine ⟨arrived, waiting ++ [message], by simp, rfl, ?_⟩
  simp [List.mapIdx_append]

theorem Line.deliver {sealed flight : List Bytes} {opened : List (Except SessionError Bytes)} {frame : Bytes}
    (h : Line suite key side sealed opened (frame :: flight)) :
    opened.length < sealed.length ∧ ∃ message, frame = FrameCipher.frame suite key side opened.length message ∧
      Line suite key side sealed (opened ++ [.ok message]) flight := by
  obtain ⟨arrived, waiting, rfl, rfl, hflight⟩ := h
  cases waiting with
  | nil => simp at hflight
  | cons message waiting =>
    simp only [List.mapIdx_cons, List.cons.injEq] at hflight
    obtain ⟨rfl, rfl⟩ := hflight
    refine ⟨by simp, message, by simp, arrived ++ [message], waiting, by simp, by simp, ?_⟩
    simp [Nat.add_assoc, Nat.add_comm 1]

theorem Line.opened_eq {sealed flight : List Bytes} {opened : List (Except SessionError Bytes)}
    (h : Line suite key side sealed opened flight) :
    opened.length + flight.length = sealed.length ∧ opened = (sealed.take opened.length).map .ok := by
  obtain ⟨arrived, waiting, rfl, rfl, rfl⟩ := h
  simp

/-- Both sessions are encrypted under one key, and each counter is the number
of frames that went by. -/
structure Live (suite : CipherSuite) (key : Key) (party : Side → Party) (d : Duplex) : Prop where
  session : ∀ side, d.session side =
    ⟨party side, .encrypted (.reached suite key side (d.sealed side).length (d.opened side.other).length)⟩
  line : ∀ side, Line suite key side (d.sealed side) (d.opened side) (d.flight side)

def parties (clientId : String) (secret : Key) : Side → Party
  | .client => .client clientId
  | .server => .server secret (some clientId)

theorem live_start {atClient atServer : Session}
    (hclient : atClient = ⟨party .client, .encrypted (.start suite .client key)⟩)
    (hserver : atServer = ⟨party .server, .encrypted (.start suite .server key)⟩) :
    Live suite key party (start atClient atServer) where
  session side := by
    cases side with
    | client => exact hclient
    | server => exact hserver
  line _ := ⟨[], [], rfl, rfl, rfl⟩

theorem step_send (hd : Live suite key party d) (kind : PacketKind) (message : Bytes)
    (h : kind.travelsInClear = false) (hlt : (d.sealed side).length + 1 < UInt64.size) :
    step suite d (.send side kind message h) =
      { d with
        session := Function.update d.session side ⟨party side, .encrypted
          (.reached suite key side ((d.sealed side).length + 1) (d.opened side.other).length)⟩
        flight := Function.update d.flight side
          (d.flight side ++ [FrameCipher.frame suite key side (d.sealed side).length message])
        sealed := Function.update d.sealed side (d.sealed side ++ [message]) } := by
  have hseal := FrameCipher.sealFrame_reached suite key side (d.opened side.other).length hlt message
  simp [step, hd.session side, sealFrame, checkAllowed, allows, isEncrypted, state, Phase.state, cipher?, withCipher,
    hseal, h]

theorem Live.send (hd : Live suite key party d) (kind : PacketKind) (message : Bytes)
    (h : kind.travelsInClear = false) (hlt : (d.sealed side).length + 1 < UInt64.size) :
    Live suite key party (step suite d (.send side kind message h)) := by
  rw [step_send hd kind message h hlt]
  constructor
  · intro s
    by_cases hs : s = side
    · subst hs
      simp
    · simp [hs, hd.session s]
  · intro s
    by_cases hs : s = side
    · subst hs
      simp only [Function.update_self]
      exact (hd.line s).send message
    · simp only [Function.update_of_ne hs]
      exact hd.line s

theorem step_deliver (hs : suite.Seals) (hd : Live suite key party d) {frames : List Bytes} {message : Bytes}
    (hflight : d.flight side = FrameCipher.frame suite key side (d.opened side).length message :: frames)
    (hlt : (d.opened side).length + 1 < UInt64.size) :
    step suite d (.deliver side) =
      { d with
        session := Function.update d.session side.other ⟨party side.other, .encrypted
          (.reached suite key side.other (d.sealed side.other).length ((d.opened side).length + 1))⟩
        flight := Function.update d.flight side frames
        opened := Function.update d.opened side (d.opened side ++ [.ok message]) } := by
  have hopen := FrameCipher.openFrame_reached suite key hs side.other (d.sealed side.other).length hlt message
  rw [side.other_other] at hopen
  simp [step, hflight, hd.session side.other, side.other_other, openFrame, state, Phase.state, cipher?, withCipher,
    hopen]

theorem Live.deliver (hs : suite.Seals) (hd : Live suite key party d) (hlt : (d.sealed side).length < UInt64.size) :
    Live suite key party (step suite d (.deliver side)) := by
  cases hflight : d.flight side with
  | nil =>
    have hstep : step suite d (.deliver side) = d := by simp [step, hflight]
    rw [hstep]
    exact hd
  | cons frame frames =>
    obtain ⟨hopened, message, rfl, hline⟩ := (hflight ▸ hd.line side).deliver
    rw [step_deliver hs hd hflight (by omega)]
    constructor
    · intro s
      by_cases h : s = side.other
      · subst h
        simp [side.other_other]
      · have hother : s.other ≠ side := fun he => h (by rw [← he, s.other_other])
        simp [h, hother, hd.session s]
    · intro s
      by_cases h : s = side
      · subst h
        simpa using hline
      · simp only [Function.update_of_ne h]
        exact hd.line s

theorem sealed_deliver (d : Duplex) (side : Side) : (step suite d (.deliver side)).sealed = d.sealed := by
  cases hflight : d.flight side with
  | nil => simp [step, hflight]
  | cons frame frames => simp [step, hflight]

theorem live_step (hs : suite.Seals) (hd : Live suite key party d) (move : Move)
    (hlt : ∀ side, (d.sealed side).length + (messagesOf side [move]).length < UInt64.size) :
    Live suite key party (step suite d move) ∧
      ∀ side, (step suite d move).sealed side = d.sealed side ++ messagesOf side [move] := by
  cases move with
  | send sender kind message h =>
    have hsender : (d.sealed sender).length + 1 < UInt64.size := by
      simpa [messagesOf, Move.messageOf?] using hlt sender
    refine ⟨hd.send kind message h hsender, fun side => ?_⟩
    rw [step_send hd kind message h hsender]
    by_cases hside : side = sender
    · subst hside
      simp [messagesOf, Move.messageOf?]
    · simp [messagesOf, Move.messageOf?, hside, Ne.symm hside]
  | deliver sender =>
    refine ⟨hd.deliver hs (Nat.lt_of_le_of_lt (Nat.le_add_right _ _) (hlt sender)), fun side => ?_⟩
    simp [sealed_deliver, messagesOf, Move.messageOf?]

theorem messagesOf_cons (side : Side) (move : Move) (moves : List Move) :
    messagesOf side (move :: moves) = messagesOf side [move] ++ messagesOf side moves := by
  simp only [messagesOf, ← List.filterMap_append, List.singleton_append]

theorem live_run (hs : suite.Seals) (moves : List Move) (hd : Live suite key party d)
    (hlt : ∀ side, (d.sealed side).length + (messagesOf side moves).length < UInt64.size) :
    Live suite key party (run suite d moves) ∧
      ∀ side, (run suite d moves).sealed side = d.sealed side ++ messagesOf side moves := by
  induction moves generalizing d with
  | nil => exact ⟨hd, fun side => by simp [run, messagesOf]⟩
  | cons move moves ih =>
    have hlt' : ∀ side, (d.sealed side).length + (messagesOf side [move]).length + (messagesOf side moves).length
        < UInt64.size := by
      intro side
      have hside := hlt side
      rw [messagesOf_cons, List.length_append] at hside
      omega
    obtain ⟨hlive, hsealed⟩ := live_step hs hd move fun side => Nat.lt_of_le_of_lt (Nat.le_add_right _ _) (hlt' side)
    obtain ⟨hlive', hsealed'⟩ := ih hlive fun side => by
      rw [hsealed, List.length_append]
      exact hlt' side
    refine ⟨hlive', fun side => ?_⟩
    calc (run suite (step suite d move) moves).sealed side
        = (step suite d move).sealed side ++ messagesOf side moves := hsealed' side
      _ = d.sealed side ++ messagesOf side (move :: moves) := by
        rw [hsealed, messagesOf_cons side move moves, List.append_assoc]

theorem Live.state_eq (hd : Live suite key party d) (side : Side) : (d.session side).state = .encrypted := by
  simp [hd.session side, state, Phase.state]

end

end Duplex

open Duplex

/-- A handshake leaves two sessions that are encrypted under the key that the
kiosk drew: of the two keys derived from it, one seals what goes to the server and
opens it there, the other what goes to the kiosk, and no frame is counted yet.
From then on, whatever the two seal and in whatever order, every frame that
arrives opens to what was sealed. -/
theorem shakeHands_delivers {suite : CipherSuite} (hs : suite.Seals) (clientId : String) (secret : Key)
    (clientDraws serverDraws : Draws) (now : UInt64) (ha : suite.Agrees clientDraws.rest.next secret) :
    let toServer := suite.derive clientDraws.next.toBytes [] (Bytes.ofString "kiosk v1 c2s")
    let toClient := suite.derive clientDraws.next.toBytes [] (Bytes.ofString "kiosk v1 s2c")
    ∃ atClient atServer, shakeHands suite clientId secret clientDraws serverDraws now = .ok (atClient, atServer) ∧
      atClient.state = .encrypted ∧ atServer.state = .encrypted ∧ atServer.clientId? = some clientId ∧
      atClient.cipher? = some { sendKey := toServer, receiveKey := toClient, sent := 0, received := 0 } ∧
      atServer.cipher? = some { sendKey := toClient, receiveKey := toServer, sent := 0, received := 0 } ∧
      ∀ moves, (∀ side, (messagesOf side moves).length < UInt64.size) → ∀ side,
        let d := run suite (Duplex.start atClient atServer) moves
        (d.session side).state = .encrypted ∧ d.sealed side = messagesOf side moves ∧
          (d.opened side).length + (d.flight side).length = (messagesOf side moves).length ∧
          d.opened side = ((messagesOf side moves).take (d.opened side).length).map .ok := by
  intro toServer toClient
  refine ⟨_, _, shakeHands_eq hs clientId secret clientDraws serverDraws now ha, rfl, rfl, rfl, rfl, rfl, ?_⟩
  intro moves hlt side
  have hstart : Live suite clientDraws.next (parties clientId secret) (Duplex.start _ _) := live_start rfl rfl
  obtain ⟨hlive, hsealed⟩ := live_run hs moves hstart (by simpa [Duplex.start] using hlt)
  have hline := (hlive.line side).opened_eq
  rw [hsealed side] at hline
  exact ⟨hlive.state_eq side, hsealed side, hline⟩

def counting : Draws := .start fun n => .replicate 32 (.ofNat (n + 7))

def crossing : List Move :=
  [.send .client .requestData [1] rfl, .send .server .responseData [2] rfl, .deliver .client,
    .send .client .dataAdded [3] rfl, .deliver .server, .deliver .client]

theorem shakeHands_delivers_crossing :
    CipherSuite.standard.Seals ∧ CipherSuite.standard.Agrees counting.rest.next (.replicate 32 9) ∧
      (∀ side, (messagesOf side crossing).length < UInt64.size) ∧
      ∃ atClient atServer,
        shakeHands .standard "front" (.replicate 32 9) counting counting 0 = .ok (atClient, atServer) ∧
        atClient.cipher?.map (·.sendKey) =
          some (CipherSuite.standard.derive (Key.toBytes (.replicate 32 7)) [] (Bytes.ofString "kiosk v1 c2s")) ∧
        let d := run .standard (Duplex.start atClient atServer) crossing
        d.sealed .client = [[1], [3]] ∧ (d.opened .client).length + (d.flight .client).length = 2 ∧
          d.opened .client = ([[1], [3]].take (d.opened .client).length).map .ok := by
  have hagrees : CipherSuite.standard.Agrees counting.rest.next (.replicate 32 9) := by decide +kernel
  have hlt : ∀ side, (messagesOf side crossing).length < UInt64.size := by
    intro side
    cases side <;> decide
  obtain ⟨atClient, atServer, hshake, -, -, -, hcipher, -, hrun⟩ :=
    shakeHands_delivers CipherSuite.standard_seals "front" (.replicate 32 9) counting counting 0 hagrees
  refine ⟨CipherSuite.standard_seals, hagrees, hlt, atClient, atServer, hshake, ?_, (hrun crossing hlt .client).2⟩
  have hdrawn : counting.next = .replicate 32 7 := by decide
  rw [hcipher, Option.map_some, hdrawn]

end Session

end OrderDesk
