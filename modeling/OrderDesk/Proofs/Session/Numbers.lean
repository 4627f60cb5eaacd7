import OrderDesk.Proofs.Session.Decoding

/-!
# The numbers of frames

A cipher seals and tries to open frames in any order, from any counters on. The
frames that it lets out have the numbers from its counter on, each once, and the
last number of all is neither let out nor taken. Main result: `numbers_run`.
-/

namespace OrderDesk.FrameCipher

inductive Use
  | sealing (message : Bytes)
  | opening (frame : Bytes)

/-- A frame that was let out, with the counter it was sealed under. -/
structure Release where
  number : UInt64
  message : Bytes
  frame : Bytes
  deriving DecidableEq, Repr

section
variable (suite : CipherSuite)

def after (c : FrameCipher) : Use → FrameCipher
  | .sealing message =>
    match c.sealFrame suite message with
    | .ok (_, c') => c'
    | .error _ => c
  | .opening frame =>
    match c.openFrame suite frame with
    | .ok (_, c') => c'
    | .error _ => c

def release? (c : FrameCipher) : Use → Option Release
  | .sealing message => (c.sealFrame suite message).toOption.map fun out => ⟨c.sent, message, out.1⟩
  | .opening _ => none

def opened? (c : FrameCipher) : Use → Option Bytes
  | .sealing _ => none
  | .opening frame => (c.openFrame suite frame).toOption.map (·.1)

def run (c : FrameCipher) (us : List Use) : FrameCipher := us.foldl (after suite) c

def releasedIn (c : FrameCipher) : List Use → List Release
  | [] => []
  | u :: us => (c.release? suite u).toList ++ (c.after suite u).releasedIn us

def openedIn (c : FrameCipher) : List Use → List Bytes
  | [] => []
  | u :: us => (c.opened? suite u).toList ++ (c.after suite u).openedIn us

end

variable {suite : CipherSuite} {c c' : FrameCipher} {u : Use}

/-! ## One use -/

theorem sealFrame_eq_error_iff {message : Bytes} {e : SessionError} :
    c.sealFrame suite message = .error e ↔ ¬ c.sent.toNat + 1 < UInt64.size ∧ e = .crypto .sendCounterExhausted := by
  by_cases hlt : c.sent.toNat + 1 < UInt64.size
  · simp [sealFrame_of_lt suite hlt, hlt]
  · have hnone : succ? c.sent = none := if_neg hlt
    simp [sealFrame, hnone, hlt, eq_comm]

/-- What a use can do to the counters, and what comes out of it. -/
inductive Used (suite : CipherSuite) (c : FrameCipher) : Use → FrameCipher → Option Release → Option Bytes → Prop
  | released (message : Bytes) (h : c.sent.toNat + 1 < UInt64.size) :
    Used suite c (.sealing message) { c with sent := c.sent + 1 }
      (some ⟨c.sent, message, suite.sealed c.sendKey (.ofCounter c.sent) [] message⟩) none
  | heldBack (message : Bytes) (h : ¬ c.sent.toNat + 1 < UInt64.size) : Used suite c (.sealing message) c none none
  | opened (frame message : Bytes) (h : c.received.toNat + 1 < UInt64.size) :
    Used suite c (.opening frame) { c with received := c.received + 1 } none (some message)
  | refused (frame : Bytes) (e : SessionError) (h : c.openFrame suite frame = .error e) :
    Used suite c (.opening frame) c none none

theorem used (suite : CipherSuite) (c : FrameCipher) (u : Use) :
    Used suite c u (c.after suite u) (c.release? suite u) (c.opened? suite u) := by
  cases u with
  | sealing message =>
    rw [after, release?, opened?]
    by_cases hlt : c.sent.toNat + 1 < UInt64.size
    · rw [sealFrame_of_lt suite hlt]
      exact .released message hlt
    · rw [sealFrame_eq_error_iff.2 ⟨hlt, rfl⟩]
      exact .heldBack message hlt
  | opening frame =>
    rw [after, release?, opened?]
    cases hopen : c.openFrame suite frame with
    | error e => exact .refused frame e hopen
    | ok out =>
      obtain ⟨message, c'⟩ := out
      obtain rfl := openFrame_ok hopen
      exact .opened frame message (lt_of_openFrame hopen)

theorem Used.received_of_sealing {message : Bytes} {release? : Option Release} {opened? : Option Bytes}
    (h : Used suite c (.sealing message) c' release? opened?) : c'.received = c.received := by
  cases h <;> rfl

theorem Used.sent_of_opening {frame : Bytes} {release? : Option Release} {opened? : Option Bytes}
    (h : Used suite c (.opening frame) c' release? opened?) : c'.sent = c.sent := by
  cases h <;> rfl

/-! ## Any uses -/

/-- Between two states of a cipher these frames were let out and these messages
came in. -/
structure Passed (suite : CipherSuite) (c : FrameCipher) (released : List Release) (opened : List Bytes)
    (c' : FrameCipher) : Prop where
  sendKey : c'.sendKey = c.sendKey
  sent : c'.sent.toNat = c.sent.toNat + released.length
  received : c'.received.toNat = c.received.toNat + opened.length
  numbers : released.map (·.number.toNat) = List.range' c.sent.toNat released.length
  frames : ∀ r ∈ released, r.frame = suite.sealed c.sendKey (.ofCounter r.number) [] r.message

theorem Passed.refl (suite : CipherSuite) (c : FrameCipher) : Passed suite c [] [] c := ⟨rfl, rfl, rfl, rfl, nofun⟩

theorem Passed.trans {c'' : FrameCipher} {released released' : List Release} {opened opened' : List Bytes}
    (h : Passed suite c released opened c') (h' : Passed suite c' released' opened' c'') :
    Passed suite c (released ++ released') (opened ++ opened') c'' where
  sendKey := h'.sendKey.trans h.sendKey
  sent := by rw [h'.sent, h.sent, List.length_append, Nat.add_assoc]
  received := by rw [h'.received, h.received, List.length_append, Nat.add_assoc]
  numbers := by
    rw [List.map_append, h.numbers, h'.numbers, h.sent, List.length_append, ← List.range'_append_1]
  frames r hr := by
    rcases List.mem_append.1 hr with hr | hr
    · exact h.frames r hr
    · rw [← h.sendKey]
      exact h'.frames r hr

theorem Used.passed {release? : Option Release} {opened? : Option Bytes}
    (h : Used suite c u c' release? opened?) : Passed suite c release?.toList opened?.toList c' := by
  cases h with
  | heldBack | refused => exact .refl suite c
  | released message hlt =>
    refine ⟨rfl, toNat_add_one hlt, rfl, rfl, fun r hr => ?_⟩
    obtain rfl := List.mem_singleton.1 hr
    rfl
  | opened frame message hlt => exact ⟨rfl, rfl, toNat_add_one hlt, rfl, nofun⟩

theorem passed_run (suite : CipherSuite) (us : List Use) (c : FrameCipher) :
    Passed suite c (c.releasedIn suite us) (c.openedIn suite us) (c.run suite us) := by
  induction us generalizing c with
  | nil => exact .refl suite c
  | cons u us ih => exact (used suite c u).passed.trans (ih (c.after suite u))

section
variable {released : List Release} {opened : List Bytes}

theorem Passed.ascending (h : Passed suite c released opened c') : (released.map (·.number)).Pairwise (· < ·) := by
  have hnumbers : (released.map (·.number.toNat)).Pairwise (· < ·) := h.numbers ▸ List.pairwise_lt_range'
  rw [List.pairwise_map] at hnumbers ⊢
  exact hnumbers.imp fun hlt => UInt64.lt_iff_toNat_lt.2 hlt

theorem Passed.nonces_nodup (h : Passed suite c released opened c') :
    (released.map fun r => Nonce.ofCounter r.number).Nodup := by
  have hascending := h.ascending
  rw [List.pairwise_map] at hascending
  refine List.pairwise_map.2 (hascending.imp fun {a b} hlt hsame => ?_)
  exact UInt64.lt_irrefl _ (Nonce.ofCounter_inj.1 hsame ▸ hlt)

theorem Passed.number_lt (h : Passed suite c released opened c') {r : Release} (hr : r ∈ released) :
    r.number.toNat < c'.sent.toNat := by
  have hmem : r.number.toNat ∈ List.range' c.sent.toNat released.length :=
    h.numbers ▸ List.mem_map.2 ⟨r, hr, rfl⟩
  rw [h.sent]
  exact (List.mem_range'_1.1 hmem).2

/-- Once there is no number left none comes again. -/
theorem Passed.exhausted (h : Passed suite c released opened c') (hc : ¬ c.sent.toNat + 1 < UInt64.size) :
    released = [] ∧ c'.sent = c.sent := by
  have hlt : c'.sent.toNat < UInt64.size := c'.sent.toNat_lt
  have hsent := h.sent
  have hlength : released.length = 0 := by omega
  exact ⟨List.length_eq_zero_iff.1 hlength, UInt64.toNat_inj.1 (by omega)⟩

end

theorem openFrame_of_exhausted (hc : ¬ c.received.toNat + 1 < UInt64.size) (frame : Bytes) :
    ∃ e, c.openFrame suite frame = .error e := by
  cases hopen : c.openFrame suite frame with
  | error e => exact ⟨e, rfl⟩
  | ok out => exact absurd (lt_of_openFrame hopen) hc

/-- Whatever is sealed and opened, from any counters on: every frame that is let
out is sealed under its number, the numbers ascend, no two frames have one nonce,
and no frame has the last number. The counters count what went out and what came
in, each of them alone. Nothing is held back but for want of a number, and then
nothing goes out any more. A number that is not let out is not taken either. -/
theorem numbers_run (suite : CipherSuite) (c₀ : FrameCipher) (us : List Use) :
    let c := c₀.run suite us
    let released := c₀.releasedIn suite us
    (∀ r ∈ released, r.frame = suite.sealed c₀.sendKey (.ofCounter r.number) [] r.message ∧
        r.number.toNat + 1 < UInt64.size) ∧
      (released.map (·.number)).Pairwise (· < ·) ∧ (released.map fun r => Nonce.ofCounter r.number).Nodup ∧
      c.sent.toNat = c₀.sent.toNat + released.length ∧
      c.received.toNat = c₀.received.toNat + (c₀.openedIn suite us).length ∧
      (∀ message, (c.after suite (.sealing message)).received = c.received) ∧
      (∀ frame, (c.after suite (.opening frame)).sent = c.sent) ∧
      (∀ message e, c.sealFrame suite message = .error e ↔
        ¬ c.sent.toNat + 1 < UInt64.size ∧ e = .crypto .sendCounterExhausted) ∧
      (¬ c.sent.toNat + 1 < UInt64.size → ∀ later, c.releasedIn suite later = [] ∧
        ∀ message, (c.run suite later).sealFrame suite message = .error (.crypto .sendCounterExhausted)) ∧
      ∀ message e, c.sealFrame suite message = .error e → ∀ receiver : FrameCipher, receiver.received = c.sent →
        ∀ frame, ∃ e', receiver.openFrame suite frame = .error e' := by
  intro c released
  have hpassed := passed_run suite us c₀
  refine ⟨fun r hr => ⟨hpassed.frames r hr, ?_⟩, hpassed.ascending, hpassed.nonces_nodup, hpassed.sent,
    hpassed.received, fun message => (used suite c (.sealing message)).received_of_sealing,
    fun frame => (used suite c (.opening frame)).sent_of_opening, fun message e => sealFrame_eq_error_iff,
    fun hexhausted later => ?_, fun message e he receiver hnumber => ?_⟩
  · exact Nat.lt_of_le_of_lt (hpassed.number_lt hr) c.sent.toNat_lt
  · obtain ⟨hreleased, hsent⟩ := (passed_run suite later c).exhausted hexhausted
    exact ⟨hreleased, fun message => sealFrame_eq_error_iff.2 ⟨hsent.symm ▸ hexhausted, rfl⟩⟩
  · exact openFrame_of_exhausted (hnumber.symm ▸ (sealFrame_eq_error_iff.1 he).1)

/-- The last number but one is let out, and the last one never. -/
theorem numbers_run_to_the_end :
    let c₀ : FrameCipher := ⟨.replicate 32 1, .replicate 32 2, .ofNat (UInt64.size - 2), 0⟩
    let uses : List Use := [.sealing [1], .opening [2], .sealing [3], .sealing [4]]
    let c := c₀.run .standard uses
    let receiver : FrameCipher := ⟨.replicate 32 2, .replicate 32 1, 0, c.sent⟩
    (c₀.releasedIn .standard uses).map (·.number.toNat) = [UInt64.size - 2] ∧
      ¬ c.sent.toNat + 1 < UInt64.size ∧ c.releasedIn .standard uses = [] ∧
      c.sealFrame .standard [5] = .error (.crypto .sendCounterExhausted) ∧
      ∀ frame, ∃ e, receiver.openFrame .standard frame = .error e := by
  intro c₀ uses c receiver
  have hexhausted : ¬ c.sent.toNat + 1 < UInt64.size := by decide +kernel
  obtain ⟨-, -, -, -, -, -, -, -, hend, hrefused⟩ := numbers_run .standard c₀ uses
  have hseal : c.sealFrame .standard [5] = .error (.crypto .sendCounterExhausted) := (hend hexhausted []).2 [5]
  exact ⟨by decide +kernel, hexhausted, (hend hexhausted uses).1, hseal, hrefused [5] _ hseal receiver rfl⟩

end OrderDesk.FrameCipher
