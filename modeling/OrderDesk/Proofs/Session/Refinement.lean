import OrderDesk.Proofs.Session.Lifecycle
import OrderDesk.Session.Handshake

/-!
# Sessions and their records

A session that is a party in a phase holds a nonce or a cipher only where the
phase has one. Its record says the same in separate fields, and whatever is done
to the session comes to the same as done to the record: the same outcome, and the
record of the session that is left. So a session may stand for its record.
Main results: `run_record`, `run_fresh`, `regular_iff`.
-/

namespace OrderDesk

namespace Session

def secret? (s : Session) : Option Key :=
  match s.party with
  | .client _ => none
  | .server secret _ => some secret

def record (s : Session) : SessionRecord where
  side := s.side
  state := s.state
  clientId? := s.clientId?
  nonce? := s.nonce?
  secret? := s.secret?
  cipher? := s.cipher?

theorem record_client (clientId : String) : (client clientId).record = .client clientId := rfl

theorem record_server (secret : Key) : (server secret).record = .server secret := rfl

theorem record_fail (s : Session) : s.fail.record = s.record.fail := by
  obtain ⟨party, phase⟩ := s
  cases party <;> rfl

theorem record_withCipher {s : Session} {cipher : FrameCipher} (h : s.cipher? = some cipher) (cipher' : FrameCipher) :
    (s.withCipher cipher').record = { s.record with cipher? := some cipher' } := by
  obtain ⟨party, phase⟩ := s
  cases phase with
  | keyExchanged | encrypted => cases party <;> rfl
  | _ => cases h

/-! ## Each operation -/

section
variable (suite : CipherSuite) (s : Session) (draws : Draws)

theorem begin_record : SessionRecord.begin.on s.record draws = ((s.record, draws), s.begin) := by
  obtain ⟨party, phase⟩ := s
  cases party <;> cases phase <;> rfl

theorem acceptHandshake_record (p : HandShake) :
    (SessionRecord.acceptHandshake suite p).on s.record draws =
      (((s.acceptHandshake suite draws p).1.1.record, (s.acceptHandshake suite draws p).1.2),
        (s.acceptHandshake suite draws p).2) := by
  obtain ⟨party, phase⟩ := s
  cases party <;> cases phase <;> rfl

theorem acceptHello_record (p : Hello) :
    (SessionRecord.acceptHello suite p).on s.record draws =
      (((s.acceptHello suite draws p).1.1.record, (s.acceptHello suite draws p).1.2),
        (s.acceptHello suite draws p).2) := by
  obtain ⟨party, phase⟩ := s
  cases party with
  | server => cases phase <;> rfl
  | client clientId =>
    cases phase with
    | unencrypted =>
      have hrecord : record ⟨.client clientId, .unencrypted⟩ = .client clientId := rfl
      rw [hrecord]
      by_cases hlength : p.nonce.length = KeyTransport.nonceLength
      · cases hpublic : KeyTransport.keyOfBytes p.publicKey with
        | error e =>
          simp [SessionRecord.acceptHello, SessionRecord.on_expect_of, SessionRecord.client, acceptHello, hlength,
            hpublic]
          rfl
        | ok serverPublic =>
          simp [SessionRecord.acceptHello, SessionRecord.on_expect_of, SessionRecord.client, acceptHello, hlength,
            hpublic]
          rfl
      · simp [SessionRecord.acceptHello, SessionRecord.on_expect_of, SessionRecord.client, acceptHello, hlength]
        rfl
    | _ => rfl

theorem acceptKeyExchange_record (now : UInt64) (p : KeyExchange) :
    (SessionRecord.acceptKeyExchange suite now p).on s.record draws =
      (((s.acceptKeyExchange suite now p).1.record, draws), (s.acceptKeyExchange suite now p).2) := by
  obtain ⟨party, phase⟩ := s
  cases party with
  | client => cases phase <;> rfl
  | server secret clientId? =>
    cases phase with
    | helloSent nonce =>
      have hplace : (record ⟨.server secret clientId?, .helloSent nonce⟩).side = .server ∧
          (record ⟨.server secret clientId?, .helloSent nonce⟩).state = .helloSent := ⟨rfl, rfl⟩
      have hnonce : (record ⟨.server secret clientId?, .helloSent nonce⟩).nonce? = some nonce := rfl
      have hsecret : ({ record ⟨.server secret clientId?, .helloSent nonce⟩ with nonce? := none } :
          SessionRecord).secret? = some secret := rfl
      simp only [SessionRecord.acceptKeyExchange, SessionRecord.on_guarded, SessionRecord.on_bind,
        SessionRecord.on_expect_of hplace, SessionRecord.on_takeNonce hnonce, SessionRecord.on_serverSecret hsecret,
        SessionRecord.on_ofExcept, acceptKeyExchange]
      cases hunwrap : KeyTransport.unwrap suite secret p.encryptedSessionKey with
      | error e =>
        have hkey : sessionKeyOf suite secret nonce p = .error e := by simp [sessionKeyOf, hunwrap, bind, Except.bind]
        rw [hkey]
        rfl
      | ok sessionKey =>
        cases hconfirm : KeyTransport.confirm suite sessionKey nonce p.signedNonce with
        | error e =>
          have hkey : sessionKeyOf suite secret nonce p = .error e := by
            simp [sessionKeyOf, hunwrap, hconfirm, bind, Except.bind]
          simp only [hkey, hconfirm]
          rfl
        | ok =>
          have hkey : sessionKeyOf suite secret nonce p = .ok sessionKey := by
            simp [sessionKeyOf, hunwrap, hconfirm, bind, Except.bind, pure, Except.pure]
          simp only [hkey, hconfirm]
          rfl
    | _ => rfl

theorem acceptEncryptComplete_record (p : EncryptComplete) :
    (SessionRecord.acceptEncryptComplete p).on s.record draws =
      (((s.acceptEncryptComplete p).1.record, draws), (s.acceptEncryptComplete p).2) := by
  obtain ⟨party, phase⟩ := s
  cases party <;> cases phase <;> rfl

theorem checkAllowed_record (kind : PacketKind) :
    (SessionRecord.checkAllowed kind).on s.record draws = ((s.record, draws), s.checkAllowed kind) := by
  have hencrypted : s.record.isEncrypted = s.isEncrypted := rfl
  have hstate : s.record.state = s.state := rfl
  rw [checkAllowed, allows]
  by_cases hs : s.state = .failed
  · simp [SessionRecord.checkAllowed, hs, hstate]
  · cases he : s.isEncrypted <;> cases hk : kind.isHandshake <;>
      simp [SessionRecord.checkAllowed, hs, hstate, he, hk, hencrypted]

theorem sealFrame_record (kind : PacketKind) (message : Bytes) :
    (SessionRecord.sealFrame suite kind message).on s.record draws =
      (((s.sealFrame suite kind message).1.record, draws), (s.sealFrame suite kind message).2) := by
  have hcipher : s.record.cipher? = s.cipher? := rfl
  rw [sealFrame, SessionRecord.sealFrame]
  simp only [SessionRecord.on_bind, checkAllowed_record]
  cases hallowed : s.checkAllowed kind with
  | error e => simp
  | ok =>
    simp only [SessionRecord.on_current, hcipher]
    cases hs : s.cipher? with
    | none => simp
    | some cipher =>
      by_cases hclear : kind.travelsInClear = true
      · simp [hclear]
      · cases hseal : cipher.sealFrame suite message with
        | error e => simp [hclear, hseal]
        | ok out => simp [hclear, hseal, record_withCipher hs, Except.map]

theorem openFrame_record (frame : Bytes) :
    (SessionRecord.openFrame suite frame).on s.record draws =
      (((s.openFrame suite frame).1.record, draws), (s.openFrame suite frame).2) := by
  have hcipher : s.record.cipher? = s.cipher? := rfl
  have hstate : s.record.state = s.state := rfl
  rw [openFrame, SessionRecord.openFrame]
  by_cases hs : s.state = .failed
  · simp [hstate, hs]
  · cases hc : s.cipher? with
    | none => simp [hstate, hs, hcipher, hc]
    | some cipher =>
      cases hopen : cipher.openFrame suite frame with
      | error e => simp [hstate, hs, hcipher, hc, hopen, record_fail]
      | ok out => simp [hstate, hs, hcipher, hc, hopen, record_withCipher hc, Except.map]

end

/-! ## Whole runs -/

abbrev Performance := Session × Except SessionError Unit

section
variable (suite : CipherSuite)

def perform (s : Session) : Op → Performance
  | .begin => (s, done s.begin)
  | .acceptHandshake draws p => ((s.acceptHandshake suite draws p).1.1, done (s.acceptHandshake suite draws p).2)
  | .acceptHello draws p => ((s.acceptHello suite draws p).1.1, done (s.acceptHello suite draws p).2)
  | .acceptKeyExchange now p => ((s.acceptKeyExchange suite now p).1, done (s.acceptKeyExchange suite now p).2)
  | .acceptEncryptComplete p => s.acceptEncryptComplete p
  | .fail => (s.fail, .ok ())
  | .sealFrame kind message => ((s.sealFrame suite kind message).1, done (s.sealFrame suite kind message).2)
  | .openFrame frame => ((s.openFrame suite frame).1, done (s.openFrame suite frame).2)
  | .checkInbound kind => (s, s.checkAllowed kind)

def after (s : Session) (op : Op) : Session := (s.perform suite op).1

def run (s : Session) (ops : List Op) : Session := ops.foldl (after suite) s

end

theorem done_unit (outcome : Except SessionError Unit) : done outcome = outcome := by cases outcome <;> rfl

theorem perform_record (suite : CipherSuite) (s : Session) (op : Op) :
    s.record.perform suite op = ((s.perform suite op).1.record, (s.perform suite op).2) := by
  cases op with
  | begin => simp only [SessionRecord.perform, SessionRecord.leaves, begin_record, perform]
  | acceptHandshake => simp only [SessionRecord.perform, SessionRecord.leaves, acceptHandshake_record, perform]
  | acceptHello => simp only [SessionRecord.perform, SessionRecord.leaves, acceptHello_record, perform]
  | acceptKeyExchange => simp only [SessionRecord.perform, SessionRecord.leaves, acceptKeyExchange_record, perform]
  | acceptEncryptComplete =>
    simp only [SessionRecord.perform, SessionRecord.leaves, acceptEncryptComplete_record, perform, done_unit]
  | fail => simp only [SessionRecord.perform, perform, record_fail]
  | sealFrame => simp only [SessionRecord.perform, SessionRecord.leaves, sealFrame_record, perform]
  | openFrame => simp only [SessionRecord.perform, SessionRecord.leaves, openFrame_record, perform]
  | checkInbound => simp only [SessionRecord.perform, SessionRecord.leaves, checkAllowed_record, perform, done_unit]

/-- A session and its record stay together, whatever is done to both. -/
theorem run_record (suite : CipherSuite) (s : Session) (ops : List Op) :
    s.record.run suite ops = (s.run suite ops).record := by
  induction ops generalizing s with
  | nil => rfl
  | cons op ops ih =>
    have hafter : s.record.after suite op = (s.after suite op).record := by
      rw [SessionRecord.after, perform_record]
      rfl
    exact (congrArg (·.run suite ops) hafter).trans (ih (s.after suite op))

theorem run_fresh (suite : CipherSuite) {r : SessionRecord} (h : r.Fresh) :
    ∃ s : Session, s.record = r ∧ ∀ ops, r.run suite ops = (s.run suite ops).record := by
  rcases h with ⟨clientId, rfl⟩ | ⟨secret, rfl⟩
  · exact ⟨client clientId, record_client clientId, run_record suite (client clientId)⟩
  · exact ⟨server secret, record_server secret, run_record suite (server secret)⟩

/-! ## Which records are those of sessions -/

/-- The session is in a phase that its side comes to. -/
def Fitting (s : Session) : Prop :=
  match s.side with
  | .client => s.state ≠ .helloSent
  | .server => s.state ≠ .keyExchanged

theorem Fitting.regular {s : Session} (h : s.Fitting) : s.record.Regular := by
  obtain ⟨party, phase⟩ := s
  cases party with
  | client clientId =>
    refine ⟨nofun, fun _ => ?_, iff_of_false nofun nofun, fun _ => rfl⟩
    cases phase with
    | helloSent => exact absurd rfl h
    | unencrypted | failed => exact ⟨rfl, iff_of_false nofun nofun, nofun⟩
    | keyExchanged => exact ⟨rfl, iff_of_true rfl (.inl rfl), nofun⟩
    | encrypted => exact ⟨rfl, iff_of_true rfl (.inr rfl), nofun⟩
  | server secret clientId? =>
    refine ⟨fun _ => ?_, nofun, iff_of_true rfl rfl, nofun⟩
    cases phase with
    | keyExchanged => exact absurd rfl h
    | unencrypted | failed => exact ⟨iff_of_false nofun nofun, iff_of_false nofun nofun, nofun⟩
    | helloSent => exact ⟨iff_of_true rfl rfl, iff_of_false nofun nofun, nofun⟩
    | encrypted => exact ⟨iff_of_false nofun nofun, iff_of_true rfl rfl, nofun⟩

theorem exists_record_of_client {r : SessionRecord} (h : r.Regular) (hside : r.side = .client) :
    ∃ s : Session, s.Fitting ∧ s.record = r := by
  obtain ⟨hnonce, hcipher, hstate⟩ := h.client hside
  obtain ⟨clientId, hclientId⟩ := Option.isSome_iff_exists.1 (h.equipped.2 hside)
  have hsecret : r.secret? = none := by simpa [hside] using h.equipped.1
  obtain ⟨side, state, clientId?, nonce?, secret?, cipher?⟩ := r
  cases hside
  cases hnonce
  cases hclientId
  cases hsecret
  cases cipher? with
  | none =>
    cases state with
    | unencrypted => exact ⟨⟨.client clientId, .unencrypted⟩, nofun, rfl⟩
    | failed => exact ⟨⟨.client clientId, .failed⟩, nofun, rfl⟩
    | helloSent => exact absurd rfl hstate
    | keyExchanged => cases hcipher.2 (.inl rfl)
    | encrypted => cases hcipher.2 (.inr rfl)
  | some cipher =>
    rcases hcipher.1 rfl with hs | hs
    · cases hs
      exact ⟨⟨.client clientId, .keyExchanged cipher⟩, nofun, rfl⟩
    · cases hs
      exact ⟨⟨.client clientId, .encrypted cipher⟩, nofun, rfl⟩

theorem exists_record_of_server {r : SessionRecord} (h : r.Regular) (hside : r.side = .server) :
    ∃ s : Session, s.Fitting ∧ s.record = r := by
  obtain ⟨hnonce, hcipher, hstate⟩ := h.server hside
  obtain ⟨secret, hsecret⟩ := Option.isSome_iff_exists.1 (h.equipped.1.2 hside)
  obtain ⟨side, state, clientId?, nonce?, secret?, cipher?⟩ := r
  cases hside
  cases hsecret
  cases state with
  | unencrypted =>
    obtain rfl : nonce? = none := by simpa using hnonce
    obtain rfl : cipher? = none := by simpa using hcipher
    exact ⟨⟨.server secret clientId?, .unencrypted⟩, nofun, rfl⟩
  | helloSent =>
    obtain ⟨nonce, rfl⟩ := Option.isSome_iff_exists.1 (hnonce.2 rfl)
    obtain rfl : cipher? = none := by simpa using hcipher
    exact ⟨⟨.server secret clientId?, .helloSent nonce⟩, nofun, rfl⟩
  | keyExchanged => exact absurd rfl hstate
  | encrypted =>
    obtain ⟨cipher, rfl⟩ := Option.isSome_iff_exists.1 (hcipher.2 rfl)
    obtain rfl : nonce? = none := by simpa using hnonce
    exact ⟨⟨.server secret clientId?, .encrypted cipher⟩, nofun, rfl⟩
  | failed =>
    obtain rfl : nonce? = none := by simpa using hnonce
    obtain rfl : cipher? = none := by simpa using hcipher
    exact ⟨⟨.server secret clientId?, .failed⟩, nofun, rfl⟩

/-- The records that hold what their state says are those of the sessions. -/
theorem regular_iff (r : SessionRecord) : r.Regular ↔ ∃ s : Session, s.Fitting ∧ s.record = r := by
  constructor
  · intro h
    cases hside : r.side with
    | client => exact exists_record_of_client h hside
    | server => exact exists_record_of_server h hside
  · rintro ⟨s, hs, rfl⟩
    exact hs.regular

end Session

end OrderDesk
