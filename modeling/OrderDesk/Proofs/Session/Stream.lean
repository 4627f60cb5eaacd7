import OrderDesk.Proofs.Packet.Codec
import OrderDesk.Proofs.Session.Frames
import OrderDesk.Proofs.Session.Integrity

/-!
# The stream of one end

An encrypted end of a connection takes packets from its queue and answers the
packets of its peer, in any order. All that it writes is one stream: each packet
is sealed under the next number, as long as there are numbers. A peer that has
the session key reads the packets back, with those of the handshake before them.
-/

namespace OrderDesk

/-- Packets that an encrypted session never lets out in the clear. -/
def Packet.AllSealed (ps : List Packet) : Prop := ∀ p ∈ ps, p.kind.travelsInClear = false

theorem Packet.allSealed_nil : AllSealed [] := fun _ hp => absurd hp List.not_mem_nil

theorem Packet.AllSealed.append {ps qs : List Packet} (hp : AllSealed ps) (hq : AllSealed qs) : AllSealed (ps ++ qs) :=
  fun p h => (List.mem_append.1 h).elim (hp p) (hq p)

theorem Packet.allSealed_singleton {p : Packet} (h : p.kind.travelsInClear = false) : AllSealed [p] := by
  intro q hq
  rw [List.mem_singleton.1 hq]
  exact h

/-! ## What an end says -/

/-- A turn of an encrypted end: it takes a packet from its queue, or it answers
a packet of its peer. -/
inductive Said
  | taken (p : Packet)
  | replied (ps : List Packet)
  deriving DecidableEq, Repr

def Said.packets : Said → List Packet
  | taken p => [p]
  | replied ps => ps

def Said.taken? : Said → Option Packet
  | taken p => some p
  | replied _ => none

/-- What an end of a connection has written, what was queued for it, and its
turns. -/
structure Transcript where
  frames : List Bytes
  queued : List Packet
  turns : List Said

namespace Transcript

def blank : Transcript := ⟨[], [], []⟩

def add (x : Transcript) (frames : List Bytes) (queued : List Packet) (turns : List Said) : Transcript :=
  ⟨x.frames ++ frames, x.queued ++ queued, x.turns ++ turns⟩

/-- Every packet of the turns, as they follow each other. -/
def said (x : Transcript) : List Packet := x.turns.flatMap Said.packets

def taken (x : Transcript) : List Packet := x.turns.filterMap Said.taken?

variable (x : Transcript) (frames : List Bytes) (queued : List Packet) (turns : List Said)

@[simp] theorem said_add : (x.add frames queued turns).said = x.said ++ turns.flatMap Said.packets :=
  List.flatMap_append

@[simp] theorem taken_add : (x.add frames queued turns).taken = x.taken ++ turns.filterMap Said.taken? :=
  List.filterMap_append

theorem add_nil : x.add [] [] [] = x := by simp [add]

/-- The transcript of a run: every move adds to it. -/
def along {σ μ : Type} (after : σ → μ → σ) (record : σ → Transcript → μ → Transcript) (x : Transcript) (s : σ) :
    List μ → Transcript
  | [] => x
  | m :: ms => along after record (record s x m) (after s m) ms

theorem along_snoc {σ μ : Type} (after : σ → μ → σ) (record : σ → Transcript → μ → Transcript) (s : σ) (ms : List μ)
    (m : μ) :
    along after record x s (ms ++ [m]) = record (ms.foldl after s) (along after record x s ms) m := by
  induction ms generalizing x s with
  | nil => rfl
  | cons m' ms ih => exact ih (record s x m') (after s m')

/-- What turns take from a queue is what waited longest in it; what else happens
to it is that more comes to its end. -/
structure Shifts (waiting waiting' : List Packet) (turns : List Said) : Prop where
  taken : turns.filterMap Said.taken? <+: waiting
  rest : turns.filterMap Said.taken? ++ waiting' = waiting ++ waiting'.drop waiting.length
  allSealed : Packet.AllSealed waiting'

variable {x} {waiting waiting' : List Packet} {turns}

theorem Shifts.fed {added : List Packet} (hw : Packet.AllSealed waiting) (ha : Packet.AllSealed added)
    (hturns : turns.filterMap Said.taken? = []) : Shifts waiting (waiting ++ added) turns := by
  refine ⟨?_, ?_, hw.append ha⟩
  · rw [hturns]
    exact List.nil_prefix
  · rw [hturns, List.nil_append, List.drop_left]

theorem Shifts.unmoved (hw : Packet.AllSealed waiting) (hturns : turns.filterMap Said.taken? = []) :
    Shifts waiting waiting turns := by
  have hfed := Shifts.fed hw Packet.allSealed_nil hturns
  rwa [List.append_nil] at hfed

theorem Shifts.taking {p : Packet} (hw : Packet.AllSealed (p :: waiting)) :
    Shifts (p :: waiting) waiting [.taken p] := by
  refine ⟨⟨waiting, rfl⟩, ?_, fun q hq => hw q (List.mem_cons_of_mem p hq)⟩
  have hnone : waiting.drop (p :: waiting).length = [] := List.drop_of_length_le (Nat.le_succ _)
  rw [hnone, List.append_nil]
  rfl

/-- What was queued is what was taken, followed by what waits. -/
theorem Shifts.queue (h : Shifts waiting waiting' turns) (hqueued : x.taken ++ waiting = x.queued)
    (frames : List Bytes) :
    (x.add frames (waiting'.drop waiting.length) turns).taken ++ waiting' =
      (x.add frames (waiting'.drop waiting.length) turns).queued := by
  have hnew : (x.add frames (waiting'.drop waiting.length) turns).queued =
      x.queued ++ waiting'.drop waiting.length := rfl
  rw [hnew, taken_add, List.append_assoc, h.rest, ← List.append_assoc, hqueued]

theorem Shifts.inOrder (h : Shifts waiting waiting' turns) (hqueued : x.taken ++ waiting = x.queued)
    (frames : List Bytes) (queued : List Packet) :
    (x.add frames queued turns).taken <+: (x.add frames queued turns).queued := by
  have htaken : x.taken ++ turns.filterMap Said.taken? <+: x.queued :=
    hqueued ▸ (List.prefix_append_right_inj x.taken).2 h.taken
  rw [taken_add]
  exact htaken.trans (List.prefix_append _ _)

end Transcript

namespace FrameCipher

/-- The frames that there are numbers for, in one direction. -/
def capacity : Nat := UInt64.size - 1

theorem lt_size_of_lt_capacity {n : Nat} (h : n < capacity) : n + 1 < UInt64.size := by
  unfold capacity at h
  omega

end FrameCipher

open FrameCipher (capacity)

namespace Session

section
variable (suite : CipherSuite) (key : Key) (side : Side)

/-- Packets sealed one after the other, from the first number on. -/
def stream (ps : List Packet) : List Bytes :=
  (ps.take capacity).mapIdx fun n p => FrameCipher.frame suite key side n p.encode

/-- The session seals under the key of its side, and has sealed so many frames. -/
structure Sends (n : Nat) (s : Session) : Prop where
  le_capacity : n ≤ capacity
  cipher : ∃ cipher, s.phase = .encrypted cipher ∧ cipher.sendKey = FrameCipher.frameKey suite key side ∧
    cipher.sent = .ofNat n

end

variable {suite : CipherSuite} {key : Key} {side : Side} {s : Session} {n : Nat}

/-! ## Writing -/

theorem stream_snoc {ps : List Packet} (h : ps.length < capacity) (p : Packet) :
    stream suite key side (ps ++ [p]) =
      stream suite key side ps ++ [FrameCipher.frame suite key side ps.length p.encode] := by
  have hlong : (ps ++ [p]).length ≤ capacity := by simpa [Nat.succ_le_iff] using h
  rw [stream, stream, List.take_of_length_le hlong, List.take_of_length_le (Nat.le_of_lt h), List.mapIdx_concat]

/-- What comes after the last number is not written. -/
theorem stream_of_full {ps : List Packet} (h : ps.length = capacity) (qs : List Packet) :
    stream suite key side (ps ++ qs) = stream suite key side ps := by
  rw [stream, stream, List.take_append_of_le_length (Nat.le_of_eq h.symm)]

theorem Sends.isEncrypted (h : s.Sends suite key side n) : s.isEncrypted = true := by
  obtain ⟨cipher, hphase, -⟩ := h.cipher
  simp [Session.isEncrypted, state, hphase, Phase.state]

theorem Sends.counted (h : s.Sends suite key side n) : s.counted.Sends suite key side n := by
  obtain ⟨cipher, hphase, hkey, hsent⟩ := h.cipher
  obtain ⟨party, phase⟩ := s
  obtain rfl : phase = .encrypted cipher := hphase
  exact ⟨h.le_capacity, _, rfl, hkey, hsent⟩

theorem Sends.encode (h : s.Sends suite key side n) (hlt : n < capacity) {p : Packet}
    (hp : p.kind.travelsInClear = false) :
    ∃ s', s.encode suite p = (s', .ok (FrameCipher.frame suite key side n p.encode)) ∧
      s'.Sends suite key side (n + 1) := by
  obtain ⟨cipher, hphase, hkey, hsent⟩ := h.cipher
  obtain ⟨party, phase⟩ := s
  obtain rfl : phase = .encrypted cipher := hphase
  have hseal : cipher.sealFrame suite p.encode =
      .ok (FrameCipher.frame suite key side n p.encode, { cipher with sent := .ofNat (n + 1) }) := by
    rw [FrameCipher.sealFrame, hsent, FrameCipher.succ?_ofNat (FrameCipher.lt_size_of_lt_capacity hlt), hkey]
    rfl
  have hframe := Wire.sealFrame_of_encrypted suite party cipher p.kind p.encode
  rw [if_neg (Bool.eq_false_iff.1 hp), hseal] at hframe
  refine ⟨⟨party, .encrypted { cipher with sent := .ofNat (n + 1) }⟩, ?_, hlt, _, rfl, hkey, rfl⟩
  rw [Session.encode, hframe]
  rfl

theorem Sends.encode_full (h : s.Sends suite key side n) (hfull : n = capacity) {p : Packet}
    (hp : p.kind.travelsInClear = false) : ∃ e, s.encode suite p = (s, .error e) := by
  obtain ⟨cipher, hphase, hkey, hsent⟩ := h.cipher
  obtain ⟨party, phase⟩ := s
  obtain rfl : phase = .encrypted cipher := hphase
  have hnone : FrameCipher.succ? cipher.sent = none := by
    have hn : (UInt64.ofNat n).toNat = n := UInt64.toNat_ofNat_of_lt' (by rw [hfull]; decide)
    rw [FrameCipher.succ?, hsent, hn, hfull]
    exact if_neg (by decide)
  have hframe := Wire.sealFrame_of_encrypted suite party cipher p.kind p.encode
  rw [if_neg (Bool.eq_false_iff.1 hp), FrameCipher.sealFrame, hnone] at hframe
  refine ⟨.session (.crypto .sendCounterExhausted), ?_⟩
  rw [Session.encode, hframe]
  rfl

/-- Packets written at once go on with the stream of those before them. -/
theorem Sends.encodeAll {ps qs : List Packet} (h : s.Sends suite key side ps.length) (hqs : Packet.AllSealed qs) :
    stream suite key side (ps ++ qs) = stream suite key side ps ++ (s.encodeAll suite qs).2.1 ∧
      ((s.encodeAll suite qs).2.2 = .ok () → (s.encodeAll suite qs).1.Sends suite key side (ps ++ qs).length) := by
  induction qs generalizing s ps with
  | nil => exact ⟨by simp [Session.encodeAll], fun _ => by simpa [Session.encodeAll] using h⟩
  | cons q qs ih =>
    have hq := hqs q List.mem_cons_self
    by_cases hlt : ps.length < capacity
    · obtain ⟨s', hencode, hs'⟩ := h.encode hlt hq
      have hlength : ps.length + 1 = (ps ++ [q]).length := by simp
      have hsplit : ps ++ q :: qs = (ps ++ [q]) ++ qs := by simp
      obtain ⟨hstream, hsends⟩ := ih (hlength ▸ hs') fun p hp => hqs p (List.mem_cons_of_mem q hp)
      rw [hsplit, hstream, stream_snoc hlt, Session.encodeAll, hencode]
      exact ⟨by simp, hsends⟩
    · -- nothing goes out any more, and the stream has come to its end too
      have hfull : ps.length = capacity := Nat.le_antisymm h.le_capacity (Nat.le_of_not_lt hlt)
      obtain ⟨e, hencode⟩ := h.encode_full hfull hq
      rw [stream_of_full hfull, Session.encodeAll, hencode]
      refine ⟨by simp, fun hok => ?_⟩
      cases hok

theorem encodeAll_first (suite : CipherSuite) (key : Key) (side : Side) (party : Party) {p : Packet}
    (hp : p.kind.travelsInClear = false) :
    ∃ s, (⟨party, .encrypted (.start suite side key)⟩ : Session).encodeAll suite [p] =
      (s, stream suite key side [p], .ok ()) ∧ s.Sends suite key side 1 := by
  have hpos : 0 < capacity := by decide
  have hstart : (⟨party, .encrypted (.start suite side key)⟩ : Session).Sends suite key side 0 :=
    ⟨Nat.zero_le _, _, rfl, rfl, rfl⟩
  obtain ⟨s, hencode, hs⟩ := hstart.encode hpos hp
  have hstream : stream suite key side [p] = [FrameCipher.frame suite key side 0 p.encode] :=
    stream_snoc (List.length_nil ▸ hpos) p
  refine ⟨s, ?_, hs⟩
  rw [Session.encodeAll, hencode, hstream]
  rfl

end Session

/-! ### What was written -/

namespace Transcript

/-- Frames in the clear were written, and nothing was said. -/
structure Silent (x : Transcript) (clear : List Bytes) : Prop where
  frames : x.frames = clear
  turns : x.turns = []

/-- Frames in the clear were written, and then one stream: the packets that open
it, and what was said. -/
def Streams (x : Transcript) (suite : CipherSuite) (key : Key) (side : Side) (clear : List Bytes)
    (opening : List Packet) : Prop :=
  x.frames = clear ++ Session.stream suite key side (opening ++ x.said)

variable {x : Transcript} {clear : List Bytes} {opening : List Packet} {suite : CipherSuite} {key : Key} {side : Side}

theorem Silent.said_eq (h : x.Silent clear) : x.said = [] := by
  rw [said, h.turns]
  rfl

theorem Silent.write (h : x.Silent clear) (frames : List Bytes) (queued : List Packet) :
    (x.add frames queued []).Silent (clear ++ frames) := by
  constructor
  · rw [← h.frames]
    rfl
  · exact (List.append_nil x.turns).trans h.turns

theorem Silent.queued (h : x.Silent clear) (queued : List Packet) : (x.add [] queued []).Silent clear :=
  List.append_nil clear ▸ h.write [] queued

theorem Silent.stream (h : x.Silent clear) (queued : List Packet) :
    (x.add (Session.stream suite key side opening) queued []).Streams suite key side clear opening := by
  rw [Streams, (h.write _ queued).frames, (h.write _ queued).said_eq, List.append_nil]

theorem Silent.streams_nil (h : x.Silent clear) : x.Streams suite key side clear [] := by
  rw [Streams, h.frames, h.said_eq]
  exact (List.append_nil clear).symm

theorem Streams.queued (h : x.Streams suite key side clear opening) (queued : List Packet) :
    (x.add [] queued []).Streams suite key side clear opening := by
  have hframes : (x.add [] queued []).frames = x.frames := List.append_nil x.frames
  rw [Streams, hframes, said_add, List.flatMap_nil, List.append_nil]
  exact h

/-- An encrypted session that has sealed the stream so far writes the packets of
more turns. -/
theorem Streams.write {s s' : Session} {turns : List Said} {frames : List Bytes} {outcome : Except NodeError Unit}
    (h : x.Streams suite key side clear opening) (hs : s.Sends suite key side (opening ++ x.said).length)
    (hturns : Packet.AllSealed (turns.flatMap Said.packets))
    (hout : s.encodeAll suite (turns.flatMap Said.packets) = (s', frames, outcome)) (queued : List Packet) :
    (x.add frames queued turns).Streams suite key side clear opening ∧
      (outcome = .ok () → s'.Sends suite key side (opening ++ (x.add frames queued turns).said).length) := by
  obtain ⟨hstream, hok⟩ := hs.encodeAll hturns
  rw [hout] at hstream hok
  have hframes : (x.add frames queued turns).frames = x.frames ++ frames := rfl
  rw [Streams, said_add, ← List.append_assoc]
  refine ⟨?_, hok⟩
  rw [hframes, h, List.append_assoc, ← hstream]

end Transcript

namespace Session

variable {suite : CipherSuite} {key : Key} {side : Side} {s : Session} {n : Nat}

theorem encodeAll_clear {p : Packet} (hallowed : s.allows p.kind = true)
    (hclear : s.cipher? = none ∨ p.kind.travelsInClear = true) : s.encodeAll suite [p] = (s, [p.encode], .ok ()) := by
  have hcheck : s.checkAllowed p.kind = .ok () := if_pos hallowed
  have hframe : s.sealFrame suite p.kind p.encode = (s, .ok p.encode) := by
    rw [sealFrame, hcheck]
    cases hcipher : s.cipher? with
    | none => rfl
    | some cipher =>
      have hkind := hclear.resolve_left fun hnone => Option.some_ne_none cipher (hcipher.symm.trans hnone)
      exact if_pos hkind
  have hencode : s.encode suite p = (s, .ok p.encode) := by
    rw [Session.encode, hframe]
    rfl
  rw [Session.encodeAll, hencode]
  rfl

/-! ## Reading -/

/-- The session goes on with a packet of its peer: one of the handshake takes it
a step further. -/
def meet (suite : CipherSuite) (draws : Draws) (now : UInt64) (s : Session) (p : Packet) : Session :=
  if s.isEncrypted then s
  else
    match p with
    | .handShake body => (s.acceptHandshake suite draws body).1.1
    | .hello body => (s.acceptHello suite draws body).1.1
    | .keyExchange body => (s.acceptKeyExchange suite now body).1
    | .encryptComplete body => (s.acceptEncryptComplete body).1
    | _ => s

/-- What a session obtains from frames that it opens one after the other. -/
def readAll (suite : CipherSuite) (draws : Draws) (now : UInt64) (s : Session) :
    List Bytes → List (Except NodeError Packet)
  | [] => []
  | frame :: frames =>
    match s.decode suite frame with
    | (s, .error e) => .error e :: readAll suite draws now s frames
    | (s, .ok p) => .ok p :: readAll suite draws now (s.meet suite draws now p) frames

/-- The packet of a frame that an encrypted session opens. -/
def opens? (suite : CipherSuite) (s : Session) (frame : Bytes) : Option Packet :=
  if s.isEncrypted then (s.decode suite frame).2.toOption else none

variable {draws : Draws} {now : UInt64}

theorem readAll_cons {s' : Session} {frame : Bytes} {p : Packet} (h : s.decode suite frame = (s', .ok p))
    (frames : List Bytes) :
    s.readAll suite draws now (frame :: frames) = .ok p :: (s'.meet suite draws now p).readAll suite draws now frames := by
  rw [readAll, h]

theorem decode_clear (hcipher : s.cipher? = none) (hs : s.state ≠ .failed) {p : Packet}
    (hallowed : s.allows p.kind = true) : s.decode suite p.encode = (s, .ok p) := by
  have hcheck : s.checkAllowed p.kind = .ok () := if_pos hallowed
  rw [decode, openFrame, if_neg hs, hcipher]
  dsimp only
  rw [Packet.decode_encode]
  dsimp only
  rw [hcheck]

theorem decode_sealed (hs : suite.Seals) (party : Party) {n : Nat} (hn : n < capacity) (p : Packet) :
    (⟨party, .encrypted (.reached suite key side 0 n)⟩ : Session).decode suite
        (FrameCipher.frame suite key side.other n p.encode) =
      (⟨party, .encrypted (.reached suite key side 0 (n + 1))⟩, .ok p) := by
  rw [decode, Wire.openFrame_of_encrypted,
    FrameCipher.openFrame_reached suite key hs side 0 (FrameCipher.lt_size_of_lt_capacity hn)]
  dsimp only
  rw [Packet.decode_encode]
  rfl

/-- A session that has opened so many frames reads on. -/
theorem readAll_sealed (hs : suite.Seals) (party : Party) {n : Nat} {ps : List Packet} (hn : n + ps.length ≤ capacity) :
    (⟨party, .encrypted (.reached suite key side 0 n)⟩ : Session).readAll suite draws now
        (ps.mapIdx fun i p => FrameCipher.frame suite key side.other (i + n) p.encode) = ps.map .ok := by
  induction ps generalizing n with
  | nil => rfl
  | cons p ps ih =>
    rw [List.length_cons] at hn
    -- the frames that follow are counted from the next number
    have hnext : (fun i (p : Packet) => FrameCipher.frame suite key side.other (i + 1 + n) p.encode) =
        fun i p => FrameCipher.frame suite key side.other (i + (n + 1)) p.encode := by
      funext i p
      rw [Nat.add_right_comm, Nat.add_assoc]
    have hstays : ∀ cipher, (⟨party, .encrypted cipher⟩ : Session).meet suite draws now p = ⟨party, .encrypted cipher⟩ :=
      fun _ => rfl
    rw [List.mapIdx_cons, Nat.zero_add, readAll_cons (decode_sealed hs party (by omega) p), hnext, hstays,
      ih (by omega), List.map_cons]

/-- The first sealed frame of a server reaches a kiosk that has not heard from it
since the key exchange. -/
theorem decode_confirmation (hs : suite.Seals) (clientId : String) (done : EncryptComplete) :
    (⟨.client clientId, .keyExchanged (.reached suite key .client 0 0)⟩ : Session).decode suite
        (FrameCipher.frame suite key .server 0 (Packet.encryptComplete done).encode) =
      (⟨.client clientId, .keyExchanged (.reached suite key .client 0 1)⟩, .ok (.encryptComplete done)) := by
  have hopen : (FrameCipher.reached suite key .client 0 0).openFrame suite
      (FrameCipher.frame suite key .server 0 (Packet.encryptComplete done).encode) =
        .ok ((Packet.encryptComplete done).encode, .reached suite key .client 0 1) :=
    FrameCipher.openFrame_reached suite key hs .client 0 (by decide) _
  have hlive : ¬(⟨.client clientId, .keyExchanged (.reached suite key .client 0 0)⟩ : Session).state = .failed :=
    fun h => SessionState.noConfusion h
  rw [decode, openFrame, if_neg hlive]
  dsimp only [cipher?]
  rw [hopen]
  dsimp only
  rw [Packet.decode_encode]
  rfl

/-- A kiosk that draws the session key reads the greeting of a server, the
confirmation, and what the server writes after it. -/
theorem client_reads (hs : suite.Seals) (clientId : String) (serverPublic nonce : Key) (done : EncryptComplete)
    (ps : List Packet) :
    let hello : Hello := ⟨serverPublic.toBytes, nonce.toBytes⟩
    (client clientId).readAll suite draws now
        ((Packet.hello hello).encode :: stream suite draws.next .server (.encryptComplete done :: ps)) =
      (.hello hello :: (.encryptComplete done :: ps).take capacity).map .ok := by
  intro hello
  have hhello : (client clientId).decode suite (Packet.hello hello).encode = (client clientId, .ok (.hello hello)) :=
    decode_clear rfl (fun h => SessionState.noConfusion h) rfl
  have hexchanged : (client clientId).meet suite draws now (.hello hello) =
      ⟨.client clientId, .keyExchanged (.reached suite draws.next .client 0 0)⟩ := by
    simp [hello, meet, client, Session.isEncrypted, state, Phase.state, acceptHello, KeyTransport.nonceLength,
      KeyTransport.keyOfBytes_toBytes, FrameCipher.reached, FrameCipher.start]
  have hencrypted : (⟨.client clientId, .keyExchanged (.reached suite draws.next .client 0 1)⟩ : Session).meet suite
      draws now (.encryptComplete done) = ⟨.client clientId, .encrypted (.reached suite draws.next .client 0 1)⟩ := rfl
  have hlength : 1 + (ps.take (capacity - 1)).length ≤ capacity := by
    have hpos : 0 < capacity := by decide
    rw [List.length_take]
    omega
  have hrest : (⟨.client clientId, .encrypted (.reached suite draws.next .client 0 1)⟩ : Session).readAll suite draws now
      ((ps.take (capacity - 1)).mapIdx fun i p => FrameCipher.frame suite draws.next .server (i + 1) p.encode) =
        (ps.take (capacity - 1)).map .ok := readAll_sealed hs (.client clientId) hlength
  rw [stream, List.take_cons (by decide), List.mapIdx_cons, readAll_cons hhello, hexchanged,
    readAll_cons (decode_confirmation hs clientId done), hencrypted, hrest]
  rfl

/-- A server that unwraps the session key from a key exchange reads the name of
the kiosk, the key exchange, and what the kiosk writes after it. -/
theorem server_reads (hs : suite.Seals) {secret : Key} (handShake : HandShake) {exchange : KeyExchange}
    (hkey : sessionKeyOf suite secret draws.next exchange = .ok key) (ps : List Packet) :
    (server secret).readAll suite draws now
        ((Packet.handShake handShake).encode :: (Packet.keyExchange exchange).encode :: stream suite key .client ps) =
      (.handShake handShake :: .keyExchange exchange :: ps.take capacity).map .ok := by
  let named : Party := .server secret (some handShake.clientId)
  have hname : (server secret).decode suite (Packet.handShake handShake).encode =
      (server secret, .ok (.handShake handShake)) := decode_clear rfl (fun h => SessionState.noConfusion h) rfl
  have hgreeted : (server secret).meet suite draws now (.handShake handShake) = ⟨named, .helloSent draws.next⟩ := rfl
  have hexchange : (⟨named, .helloSent draws.next⟩ : Session).decode suite (Packet.keyExchange exchange).encode =
      (⟨named, .helloSent draws.next⟩, .ok (.keyExchange exchange)) :=
    decode_clear rfl (fun h => SessionState.noConfusion h) rfl
  have hencrypted : (⟨named, .helloSent draws.next⟩ : Session).meet suite draws now (.keyExchange exchange) =
      ⟨named, .encrypted (.reached suite key .server 0 0)⟩ := by
    simp [named, meet, Session.isEncrypted, state, Phase.state, acceptKeyExchange, hkey, FrameCipher.reached,
      FrameCipher.start]
  have hlength : 0 + (ps.take capacity).length ≤ capacity := by
    rw [List.length_take]
    omega
  have hrest : (⟨named, .encrypted (.reached suite key .server 0 0)⟩ : Session).readAll suite draws now
      (stream suite key .client ps) = (ps.take capacity).map .ok := readAll_sealed hs named hlength
  rw [readAll_cons hname, hgreeted, readAll_cons hexchange, hencrypted]
  exact congrArg (.ok (.handShake handShake) :: .ok (.keyExchange exchange) :: ·) hrest

end Session

end OrderDesk
