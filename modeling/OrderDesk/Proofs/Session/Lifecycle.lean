import OrderDesk.Session.Record

/-!
# The life of a session

The operations on the record of a session as data, in any order and with any
arguments. `performed` says once what an operation can do. From it: in which
states a record holds a nonce or a cipher, that the state only goes forward, what
an error leaves, that a failed session stays as it is, and that the one nonce of
a session is examined once. Main result: `run_lifecycle`.
-/

namespace OrderDesk

namespace Session

inductive Op
  | begin
  | acceptHandshake (draws : Draws) (p : HandShake)
  | acceptHello (draws : Draws) (p : Hello)
  | acceptKeyExchange (now : UInt64) (p : KeyExchange)
  | acceptEncryptComplete (p : EncryptComplete)
  | fail
  | sealFrame (kind : PacketKind) (message : Bytes)
  | openFrame (frame : Bytes)
  | checkInbound (kind : PacketKind)

/-- The steps of the handshake that take a packet. -/
def Op.isStep : Op → Bool
  | acceptHandshake .. | acceptHello .. | acceptKeyExchange .. | acceptEncryptComplete _ => true
  | begin | fail | sealFrame .. | openFrame _ | checkInbound _ => false

/-- Whether an error in the operation fails the session. -/
def Op.isGuarded (op : Op) : Bool :=
  match op with
  | openFrame _ => true
  | _ => op.isStep

def done {α : Type} (outcome : Except SessionError α) : Except SessionError Unit := outcome.map fun _ => ()

end Session

namespace SessionRecord

open Session (Op done)

abbrev Performance := SessionRecord × Except SessionError Unit

/-- What a step leaves behind, without the packet that it makes. -/
def leaves {α : Type} (step : Step α) (r : SessionRecord) (draws : Draws) : Performance :=
  ((step.on r draws).1.1, done (step.on r draws).2)

/-- For the steps that draw nothing. -/
def undrawn : Draws := .start fun _ => .replicate 32 0

section
variable (suite : CipherSuite)

def perform (r : SessionRecord) : Op → Performance
  | .begin => leaves begin r undrawn
  | .acceptHandshake draws p => leaves (acceptHandshake suite p) r draws
  | .acceptHello draws p => leaves (acceptHello suite p) r draws
  | .acceptKeyExchange now p => leaves (acceptKeyExchange suite now p) r undrawn
  | .acceptEncryptComplete p => leaves (acceptEncryptComplete p) r undrawn
  | .fail => (r.fail, .ok ())
  | .sealFrame kind message => leaves (sealFrame suite kind message) r undrawn
  | .openFrame frame => leaves (openFrame suite frame) r undrawn
  | .checkInbound kind => leaves (checkAllowed kind) r undrawn

def after (r : SessionRecord) (op : Op) : SessionRecord := (r.perform suite op).1

def run (r : SessionRecord) (ops : List Op) : SessionRecord := ops.foldl (after suite) r

/-- The nonce that an operation issues. -/
def issued? (r : SessionRecord) : Op → Option Key
  | .acceptHandshake draws p =>
    ((acceptHandshake suite p).on r draws).2.toOption.bind fun hello => Key.ofBytes? hello.nonce
  | _ => none

/-- The nonce that a key exchange takes, if it comes in its place. -/
def examined? (r : SessionRecord) : Op → Option Key
  | .acceptKeyExchange _ _ => if r.side = .server ∧ r.state = .helloSent then r.nonce? else none
  | _ => none

def issuedIn (r : SessionRecord) : List Op → List Key
  | [] => []
  | op :: ops => (r.issued? suite op).toList ++ (r.after suite op).issuedIn ops

def examinedIn (r : SessionRecord) : List Op → List Key
  | [] => []
  | op :: ops => (r.examined? op).toList ++ (r.after suite op).examinedIn ops

end

/-! ## What an operation can do -/

inductive Performed : SessionRecord → Op → Performance → Prop
  | refused (r : SessionRecord) (op : Op) (e : SessionError) (h : op.isGuarded = false) (hf : op ≠ .fail) :
    Performed r op (r, .error e)
  | broken (r : SessionRecord) (op : Op) (e : SessionError) (h : op.isGuarded = true) :
    Performed r op (r.fail, .error e)
  | overdue (r : SessionRecord) (frame : Bytes) (e : SessionError) (hr : r.state = .failed) :
    Performed r (.openFrame frame) (r, .error e)
  | givenUp (r : SessionRecord) : Performed r .fail (r.fail, .ok ())
  | passed (r : SessionRecord) (op : Op) (h : op.isStep = false) (hr : r.state ≠ .failed) : Performed r op (r, .ok ())
  | counted (r : SessionRecord) (op : Op) (cipher cipher' : FrameCipher) (h : op.isStep = false)
    (hr : r.state ≠ .failed) (hcipher : r.cipher? = some cipher) :
    Performed r op ({ r with cipher? := some cipher' }, .ok ())
  | greeted (r : SessionRecord) (draws : Draws) (p : HandShake) (hside : r.side = .server)
    (hstate : r.state = .unencrypted) :
    Performed r (.acceptHandshake draws p)
      ({ r with nonce? := some draws.next, clientId? := some p.clientId, state := .helloSent }, .ok ())
  | answered (r : SessionRecord) (draws : Draws) (p : Hello) (cipher : FrameCipher) (hside : r.side = .client)
    (hstate : r.state = .unencrypted) :
    Performed r (.acceptHello draws p) ({ r with cipher? := some cipher, state := .keyExchanged }, .ok ())
  | admitted (r : SessionRecord) (now : UInt64) (p : KeyExchange) (cipher : FrameCipher) (hside : r.side = .server)
    (hstate : r.state = .helloSent) :
    Performed r (.acceptKeyExchange now p)
      ({ r with nonce? := none, cipher? := some cipher, state := .encrypted }, .ok ())
  | confirmed (r : SessionRecord) (p : EncryptComplete) (hside : r.side = .client) (hstate : r.state = .keyExchanged) :
    Performed r (.acceptEncryptComplete p) ({ r with state := .encrypted }, .ok ())

variable {suite : CipherSuite} {r : SessionRecord} {op : Op}

theorem performed_begin (r : SessionRecord) : Performed r .begin (r.perform suite .begin) := by
  by_cases hplace : r.side = .client ∧ r.state = .unencrypted
  · have hr : r.state ≠ .failed := by
      rw [hplace.2]
      nofun
    simp only [perform, leaves, begin, on_bind, on_expect_of hplace, on_current, on_pure]
    exact .passed r .begin rfl hr
  · simp only [perform, leaves, begin, on_bind, on_expect_of_not hplace]
    exact .refused r .begin _ rfl nofun

/-- The nonce that is kept is the one that goes out with the hello. -/
theorem acceptHandshake_cases (suite : CipherSuite) (r : SessionRecord) (draws : Draws) (p : HandShake) :
    (∃ e, (acceptHandshake suite p).on r draws = ((r.fail, draws), .error e)) ∨
      (r.side = .server ∧ r.state = .unencrypted) ∧ ∃ publicKey,
        (acceptHandshake suite p).on r draws =
          (({ r with nonce? := some draws.next, clientId? := some p.clientId, state := .helloSent }, draws.rest),
            .ok ⟨publicKey, draws.next.toBytes⟩) := by
  by_cases hplace : r.side = .server ∧ r.state = .unencrypted
  · obtain hsecret | ⟨secret, hsecret⟩ := Option.eq_none_or_eq_some r.secret?
    · simp only [acceptHandshake, on_guarded, on_bind, on_expect_of hplace, on_serverSecret_of_none hsecret]
      exact .inl ⟨_, rfl⟩
    · simp only [acceptHandshake, on_guarded, on_bind, on_expect_of hplace, on_serverSecret hsecret, on_draw, on_change,
        on_pure]
      exact .inr ⟨hplace, _, rfl⟩
  · simp only [acceptHandshake, on_guarded, on_bind, on_expect_of_not hplace]
    exact .inl ⟨_, rfl⟩

theorem performed_acceptHandshake (r : SessionRecord) (draws : Draws) (p : HandShake) :
    Performed r (.acceptHandshake draws p) (r.perform suite (.acceptHandshake draws p)) := by
  rw [perform, leaves]
  obtain ⟨e, hstep⟩ | ⟨hplace, publicKey, hstep⟩ := acceptHandshake_cases suite r draws p
  · rw [hstep]
    exact .broken r _ _ rfl
  · rw [hstep]
    exact .greeted r draws p hplace.1 hplace.2

theorem performed_acceptHello (r : SessionRecord) (draws : Draws) (p : Hello) :
    Performed r (.acceptHello draws p) (r.perform suite (.acceptHello draws p)) := by
  by_cases hplace : r.side = .client ∧ r.state = .unencrypted
  · by_cases hlength : p.nonce.length ≠ KeyTransport.nonceLength
    · simp only [perform, leaves, acceptHello, on_guarded, on_bind, on_expect_of hplace, if_pos hlength, on_throw]
      exact .broken r _ _ rfl
    · cases hpublic : KeyTransport.keyOfBytes p.publicKey with
      | error e =>
        simp only [perform, leaves, acceptHello, on_guarded, on_bind, on_expect_of hplace, if_neg hlength, on_draw,
          hpublic, on_ofExcept]
        exact .broken r _ _ rfl
      | ok serverPublic =>
        simp only [perform, leaves, acceptHello, on_guarded, on_bind, on_expect_of hplace, if_neg hlength, on_pure,
          on_draw, hpublic, on_ofExcept, on_change]
        exact .answered r draws p _ hplace.1 hplace.2
  · simp only [perform, leaves, acceptHello, on_guarded, on_bind, on_expect_of_not hplace]
    exact .broken r _ _ rfl

theorem performed_acceptKeyExchange (r : SessionRecord) (now : UInt64) (p : KeyExchange) :
    Performed r (.acceptKeyExchange now p) (r.perform suite (.acceptKeyExchange now p)) := by
  by_cases hplace : r.side = .server ∧ r.state = .helloSent
  · cases hnonce : r.nonce? with
    | none =>
      simp only [perform, leaves, acceptKeyExchange, on_guarded, on_bind, on_expect_of hplace,
        on_takeNonce_of_none hnonce]
      exact .broken r _ _ rfl
    | some issued =>
      -- from here on the record no longer holds the nonce, whatever comes
      cases hsecret : r.secret? with
      | none =>
        have htaken : ({ r with nonce? := none } : SessionRecord).secret? = none := hsecret
        simp only [perform, leaves, acceptKeyExchange, on_guarded, on_bind, on_expect_of hplace, on_takeNonce hnonce,
          on_serverSecret_of_none htaken]
        exact .broken r _ _ rfl
      | some secret =>
        have htaken : ({ r with nonce? := none } : SessionRecord).secret? = some secret := hsecret
        cases hkey : KeyTransport.unwrap suite secret p.encryptedSessionKey with
        | error e =>
          simp only [perform, leaves, acceptKeyExchange, on_guarded, on_bind, on_expect_of hplace, on_takeNonce hnonce,
            on_serverSecret htaken, hkey, on_ofExcept]
          exact .broken r _ _ rfl
        | ok sessionKey =>
          cases hconfirm : KeyTransport.confirm suite sessionKey issued p.signedNonce with
          | error e =>
            simp only [perform, leaves, acceptKeyExchange, on_guarded, on_bind, on_expect_of hplace,
              on_takeNonce hnonce, on_serverSecret htaken, hkey, hconfirm, on_ofExcept]
            exact .broken r _ _ rfl
          | ok =>
            simp only [perform, leaves, acceptKeyExchange, on_guarded, on_bind, on_expect_of hplace,
              on_takeNonce hnonce, on_serverSecret htaken, hkey, hconfirm, on_ofExcept, on_change, on_pure]
            exact .admitted r now p _ hplace.1 hplace.2
  · simp only [perform, leaves, acceptKeyExchange, on_guarded, on_bind, on_expect_of_not hplace]
    exact .broken r _ _ rfl

theorem performed_acceptEncryptComplete (r : SessionRecord) (p : EncryptComplete) :
    Performed r (.acceptEncryptComplete p) (r.perform suite (.acceptEncryptComplete p)) := by
  by_cases hplace : r.side = .client ∧ r.state = .keyExchanged
  · simp only [perform, leaves, acceptEncryptComplete, on_guarded, on_bind, on_expect_of hplace, on_change]
    exact .confirmed r p hplace.1 hplace.2
  · simp only [perform, leaves, acceptEncryptComplete, on_guarded, on_bind, on_expect_of_not hplace]
    exact .broken r _ _ rfl

/-- What is allowed in a state, or the error. -/
theorem checkAllowed_cases (r : SessionRecord) (draws : Draws) (kind : PacketKind) :
    (checkAllowed kind).on r draws = ((r, draws), .error (.illegalState r.state kind)) ∨
      r.state ≠ .failed ∧ (checkAllowed kind).on r draws = ((r, draws), .ok ()) := by
  by_cases hbarred : r.state = .failed ∨ (¬r.isEncrypted ∧ ¬kind.isHandshake)
  · left
    simp only [checkAllowed, on_bind, on_current, if_pos hbarred, on_throw]
  · right
    refine ⟨fun h => hbarred (.inl h), ?_⟩
    simp only [checkAllowed, on_bind, on_current, if_neg hbarred, on_pure]

theorem performed_checkInbound (r : SessionRecord) (kind : PacketKind) :
    Performed r (.checkInbound kind) (r.perform suite (.checkInbound kind)) := by
  rw [perform, leaves]
  obtain hallowed | ⟨hr, hallowed⟩ := checkAllowed_cases r undrawn kind
  · rw [hallowed]
    exact .refused r _ _ rfl nofun
  · rw [hallowed]
    exact .passed r _ rfl hr

theorem performed_sealFrame (r : SessionRecord) (kind : PacketKind) (message : Bytes) :
    Performed r (.sealFrame kind message) (r.perform suite (.sealFrame kind message)) := by
  obtain hallowed | ⟨hr, hallowed⟩ := checkAllowed_cases r undrawn kind
  · simp only [perform, leaves, sealFrame, on_bind, hallowed]
    exact .refused r _ _ rfl nofun
  · cases hcipher : r.cipher? with
    | none =>
      simp only [perform, leaves, sealFrame, on_bind, hallowed, on_current, hcipher, on_pure]
      exact .passed r _ rfl hr
    | some cipher =>
      by_cases hclear : kind.travelsInClear = true
      · simp only [perform, leaves, sealFrame, on_bind, hallowed, on_current, hcipher, if_pos hclear, on_pure]
        exact .passed r _ rfl hr
      · cases hseal : cipher.sealFrame suite message with
        | error e =>
          simp only [perform, leaves, sealFrame, on_bind, hallowed, on_current, hcipher, if_neg hclear, hseal,
            on_ofExcept]
          exact .refused r _ _ rfl nofun
        | ok out =>
          simp only [perform, leaves, sealFrame, on_bind, hallowed, on_current, hcipher, if_neg hclear, hseal,
            on_ofExcept, on_change, on_pure]
          exact .counted r _ cipher out.2 rfl hr hcipher

theorem performed_openFrame (r : SessionRecord) (frame : Bytes) :
    Performed r (.openFrame frame) (r.perform suite (.openFrame frame)) := by
  by_cases hr : r.state = .failed
  · simp only [perform, leaves, openFrame, on_bind, on_current, if_pos hr, on_throw]
    exact .overdue r frame _ hr
  · cases hcipher : r.cipher? with
    | none =>
      simp only [perform, leaves, openFrame, on_bind, on_current, if_neg hr, on_guarded, hcipher, on_pure]
      exact .passed r _ rfl hr
    | some cipher =>
      cases hopen : cipher.openFrame suite frame with
      | error e =>
        simp only [perform, leaves, openFrame, on_bind, on_current, if_neg hr, on_guarded, hcipher, hopen, on_ofExcept]
        exact .broken r _ _ rfl
      | ok out =>
        simp only [perform, leaves, openFrame, on_bind, on_current, if_neg hr, on_guarded, hcipher, hopen, on_ofExcept,
          on_change, on_pure]
        exact .counted r _ cipher out.2 rfl hr hcipher

theorem performed (suite : CipherSuite) (r : SessionRecord) (op : Op) : Performed r op (r.perform suite op) := by
  cases op with
  | begin => exact performed_begin r
  | acceptHandshake draws p => exact performed_acceptHandshake r draws p
  | acceptHello draws p => exact performed_acceptHello r draws p
  | acceptKeyExchange now p => exact performed_acceptKeyExchange r now p
  | acceptEncryptComplete p => exact performed_acceptEncryptComplete r p
  | fail => exact .givenUp r
  | sealFrame kind message => exact performed_sealFrame r kind message
  | openFrame frame => exact performed_openFrame r frame
  | checkInbound kind => exact performed_checkInbound r kind

/-! ## One operation -/

/-- What a record holds in each state. -/
structure Regular (r : SessionRecord) : Prop where
  server : r.side = .server →
    (r.nonce?.isSome ↔ r.state = .helloSent) ∧ (r.cipher?.isSome ↔ r.state = .encrypted) ∧ r.state ≠ .keyExchanged
  client : r.side = .client →
    r.nonce? = none ∧ (r.cipher?.isSome ↔ r.state = .keyExchanged ∨ r.state = .encrypted) ∧ r.state ≠ .helloSent
  /-- A server has its secret, a kiosk its name. -/
  equipped : (r.secret?.isSome ↔ r.side = .server) ∧ (r.side = .client → r.clientId?.isSome)

/-- A record as a kiosk or a server starts it. -/
def Fresh (r : SessionRecord) : Prop := (∃ clientId, r = client clientId) ∨ ∃ secret, r = server secret

theorem Fresh.regular (h : r.Fresh) : r.Regular := by
  rcases h with ⟨clientId, rfl⟩ | ⟨secret, rfl⟩
  · exact ⟨nofun, fun _ => ⟨rfl, iff_of_false nofun nofun, nofun⟩, iff_of_false nofun nofun, fun _ => rfl⟩
  · exact ⟨fun _ => ⟨iff_of_false nofun nofun, iff_of_false nofun nofun, nofun⟩, nofun, iff_of_true rfl rfl, nofun⟩

theorem Regular.fail (h : r.Regular) : r.fail.Regular :=
  ⟨fun _ => ⟨iff_of_false nofun nofun, iff_of_false nofun nofun, nofun⟩,
    fun _ => ⟨rfl, iff_of_false nofun nofun, nofun⟩, h.equipped⟩

/-- A failed session has nothing left to lose. -/
theorem Regular.fail_eq (h : r.Regular) (hr : r.state = .failed) : r.fail = r := by
  obtain ⟨side, state, clientId?, nonce?, secret?, cipher?⟩ := r
  obtain rfl : state = .failed := hr
  cases side with
  | server =>
    obtain ⟨hnonce, hcipher, -⟩ := h.server rfl
    have hnone : nonce? = none := by simpa using hnonce
    have hnone' : cipher? = none := by simpa using hcipher
    rw [hnone, hnone']
    rfl
  | client =>
    obtain ⟨hnone, hcipher, -⟩ := h.client rfl
    have hnone' : cipher? = none := by simpa using hcipher
    rw [show nonce? = none from hnone, hnone']
    rfl

theorem Performed.regular {out : Performance} (h : Performed r op out) (hr : r.Regular) : out.1.Regular := by
  cases h with
  | refused | overdue | passed => exact hr
  | broken | givenUp => exact hr.fail
  | counted _ cipher _ _ _ hcipher =>
    have hsome : r.cipher?.isSome := by rw [hcipher]; rfl
    refine ⟨fun hside => ?_, fun hside => ?_, hr.equipped⟩
    · obtain ⟨hnonce, hkept, hstate⟩ := hr.server hside
      exact ⟨hnonce, iff_of_true rfl (hkept.1 hsome), hstate⟩
    · obtain ⟨hnonce, hkept, hstate⟩ := hr.client hside
      exact ⟨hnonce, iff_of_true rfl (hkept.1 hsome), hstate⟩
  | greeted draws p hside hstate =>
    obtain ⟨-, hcipher, -⟩ := hr.server hside
    rw [hstate] at hcipher
    exact ⟨fun _ => ⟨iff_of_true rfl rfl, iff_of_false (fun h => nomatch hcipher.1 h) nofun, nofun⟩,
      fun hc => (nomatch hside.symm.trans hc), hr.equipped.1, fun _ => rfl⟩
  | answered draws p cipher hside hstate =>
    obtain ⟨hnonce, -, -⟩ := hr.client hside
    exact ⟨fun hs => (nomatch hside.symm.trans hs), fun _ => ⟨hnonce, iff_of_true rfl (.inl rfl), nofun⟩, hr.equipped⟩
  | admitted now p cipher hside hstate =>
    exact ⟨fun _ => ⟨iff_of_false nofun nofun, iff_of_true rfl rfl, nofun⟩, fun hc => (nomatch hside.symm.trans hc),
      hr.equipped⟩
  | confirmed p hside hstate =>
    obtain ⟨hnonce, hcipher, -⟩ := hr.client hside
    exact ⟨fun hs => (nomatch hside.symm.trans hs),
      fun _ => ⟨hnonce, iff_of_true (hcipher.2 (.inl hstate)) (.inr rfl), nofun⟩, hr.equipped⟩

theorem Performed.side_eq {out : Performance} (h : Performed r op out) : out.1.side = r.side := by cases h <;> rfl

theorem rank_le_failed (state : SessionState) : state.rank ≤ SessionState.failed.rank := by cases state <;> decide

theorem Performed.rank_le {out : Performance} (h : Performed r op out) : r.state.rank ≤ out.1.state.rank := by
  cases h with
  | refused | overdue | passed | counted => exact Nat.le_refl _
  | broken | givenUp => exact rank_le_failed r.state
  | greeted _ _ _ hstate | answered _ _ _ _ hstate | admitted _ _ _ _ hstate | confirmed _ _ hstate =>
    rw [hstate]
    exact Nat.le_of_ble_eq_true rfl

theorem Performed.of_error {out : Performance} (h : Performed r op out) (hr : r.Regular) {e : SessionError}
    (he : out.2 = .error e) : out.1 = if op.isGuarded then r.fail else r := by
  cases h with
  | refused _ _ hop => rw [hop]; rfl
  | broken _ _ hop => rw [hop]; rfl
  | overdue _ _ hfailed => exact (hr.fail_eq hfailed).symm
  | _ => cases he

theorem Performed.of_failed {out : Performance} (h : Performed r op out) (hr : r.Regular) (hfailed : r.state = .failed) :
    out.1 = r ∧ (op ≠ .fail → ∃ e, out.2 = .error e) := by
  cases h with
  | refused _ e | overdue _ e => exact ⟨rfl, fun _ => ⟨e, rfl⟩⟩
  | broken _ e => exact ⟨hr.fail_eq hfailed, fun _ => ⟨e, rfl⟩⟩
  | givenUp => exact ⟨hr.fail_eq hfailed, fun hop => absurd rfl hop⟩
  | passed _ _ hlive | counted _ _ _ _ hlive => exact absurd hfailed hlive
  | greeted _ _ _ hstate | answered _ _ _ _ hstate | admitted _ _ _ _ hstate | confirmed _ _ hstate =>
    cases hstate.symm.trans hfailed

/-! ## The nonce -/

/-- The nonce is used up, or there will never be one. -/
def Spent (r : SessionRecord) : Prop := r.nonce? = none ∧ r.state ≠ .unencrypted

theorem issued?_eq_none_of_isStep (h : op.isStep = false) : r.issued? suite op = none := by
  cases op <;> first | rfl | cases h

theorem issued?_eq_none_of_error {e : SessionError} (h : (r.perform suite op).2 = .error e) :
    r.issued? suite op = none := by
  cases op with
  | acceptHandshake draws p =>
    rw [perform, leaves] at h
    rw [issued?]
    cases hout : ((acceptHandshake suite p).on r draws).2 with
    | error _ => rfl
    | ok hello =>
      rw [hout] at h
      cases h
  | _ => rfl

theorem examined?_eq_none_of_isStep (h : op.isStep = false) : r.examined? op = none := by
  cases op <;> first | rfl | cases h

theorem examined?_cases (r : SessionRecord) (op : Op) : r.examined? op = none ∨ r.examined? op = r.nonce? := by
  cases op with
  | acceptKeyExchange =>
    rw [examined?]
    split
    · exact .inr rfl
    · exact .inl rfl
  | _ => exact .inl rfl

theorem issued?_of_greeted {draws : Draws} {p : HandShake}
    (h : (r.perform suite (.acceptHandshake draws p)).2 = .ok ()) :
    r.issued? suite (.acceptHandshake draws p) = some draws.next := by
  rw [perform, leaves] at h
  rw [issued?]
  obtain ⟨e, hstep⟩ | ⟨-, publicKey, hstep⟩ := acceptHandshake_cases suite r draws p
  · rw [hstep] at h
    cases h
  · rw [hstep]
    exact Key.ofBytes?_toBytes draws.next

theorem Regular.nonce?_of_unencrypted (h : r.Regular) (hr : r.state = .unencrypted) : r.nonce? = none := by
  cases hside : r.side with
  | server =>
    have hnonce := (h.server hside).1
    rw [hr] at hnonce
    simpa using hnonce
  | client => exact (h.client hside).1

/-- What becomes of the nonce: nothing, or it is gone for good, maybe after it
was examined, or it is issued. -/
theorem nonce_after (suite : CipherSuite) (hr : r.Regular) (op : Op) :
    (r.after suite op).nonce? = r.nonce? ∧ (r.after suite op).state = r.state ∧ r.issued? suite op = none ∧
        r.examined? op = none ∨
      (r.after suite op).Spent ∧ r.issued? suite op = none ∨
      r.state = .unencrypted ∧ r.issued? suite op = (r.after suite op).nonce? ∧ r.examined? op = none := by
  have h := performed suite r op
  have herror : ∀ e, (r.perform suite op).2 = .error e → r.issued? suite op = none := fun _ => issued?_eq_none_of_error
  rw [after]
  generalize hout : r.perform suite op = out at h herror
  cases h with
  | refused _ e hop =>
    have hstep : op.isStep = false := by cases op <;> first | rfl | cases hop
    exact .inl ⟨rfl, rfl, herror e rfl, examined?_eq_none_of_isStep hstep⟩
  | overdue _ e => exact .inl ⟨rfl, rfl, herror e rfl, rfl⟩
  | broken _ e => exact .inr (.inl ⟨⟨rfl, nofun⟩, herror e rfl⟩)
  | givenUp => exact .inr (.inl ⟨⟨rfl, nofun⟩, rfl⟩)
  | passed _ hstep | counted _ _ _ hstep =>
    exact .inl ⟨rfl, rfl, issued?_eq_none_of_isStep hstep, examined?_eq_none_of_isStep hstep⟩
  | greeted draws p hside hstate => exact .inr (.inr ⟨hstate, issued?_of_greeted (congrArg (·.2) hout), rfl⟩)
  | answered draws p cipher hside => exact .inr (.inl ⟨⟨(hr.client hside).1, nofun⟩, rfl⟩)
  | admitted => exact .inr (.inl ⟨⟨rfl, nofun⟩, rfl⟩)
  | confirmed p hside => exact .inr (.inl ⟨⟨(hr.client hside).1, nofun⟩, rfl⟩)

theorem regular_after (hr : r.Regular) (op : Op) : (r.after suite op).Regular := (performed suite r op).regular hr

theorem Spent.after (h : r.Spent) (suite : CipherSuite) (hr : r.Regular) (op : Op) :
    (r.after suite op).Spent ∧ r.issued? suite op = none ∧ r.examined? op = none := by
  have hexamined : r.examined? op = none := (examined?_cases r op).elim id fun he => he.trans h.1
  obtain ⟨hnonce, hstate, hissued, -⟩ | ⟨hspent, hissued⟩ | ⟨hstate, -, -⟩ := nonce_after suite hr op
  · exact ⟨⟨hnonce.trans h.1, hstate ▸ h.2⟩, hissued, hexamined⟩
  · exact ⟨hspent, hissued, hexamined⟩
  · exact absurd hstate h.2

theorem Spent.run (suite : CipherSuite) (ops : List Op) {r : SessionRecord} (h : r.Spent) (hr : r.Regular) :
    r.issuedIn suite ops = [] ∧ r.examinedIn suite ops = [] := by
  induction ops generalizing r with
  | nil => exact ⟨rfl, rfl⟩
  | cons op ops ih =>
    obtain ⟨hspent, hissued, hexamined⟩ := h.after suite hr op
    obtain ⟨hissuedIn, hexaminedIn⟩ := ih hspent (regular_after hr op)
    rw [issuedIn, examinedIn, hissued, hexamined, hissuedIn, hexaminedIn]
    exact ⟨rfl, rfl⟩

/-- The nonce a record holds and the nonces it issues later are one at most, and
only that one is examined, once. -/
theorem nonces_run (suite : CipherSuite) (hr : r.Regular) (ops : List Op) :
    r.examinedIn suite ops <+: r.nonce?.toList ++ r.issuedIn suite ops ∧
      (r.nonce?.toList ++ r.issuedIn suite ops).length ≤ 1 := by
  have hone : r.nonce?.toList.length ≤ 1 := by cases r.nonce? <;> simp
  induction ops generalizing r with
  | nil => exact ⟨List.nil_prefix, by rwa [issuedIn, List.append_nil]⟩
  | cons op ops ih =>
    rw [issuedIn, examinedIn]
    have hnext := ih (regular_after hr op) (by cases (r.after suite op).nonce? <;> simp)
    obtain ⟨hnonce, -, hissued, hexamined⟩ | ⟨hspent, hissued⟩ | ⟨hstate, hissued, hexamined⟩ :=
      nonce_after suite hr op
    · rw [hissued, hexamined, ← hnonce]
      exact hnext
    · obtain ⟨hissuedIn, hexaminedIn⟩ := hspent.run suite ops (regular_after hr op)
      rw [hissued, hissuedIn, hexaminedIn, Option.toList_none, List.append_nil, List.append_nil, List.append_nil]
      refine ⟨?_, hone⟩
      obtain he | he := examined?_cases r op
      · exact he ▸ List.nil_prefix
      · exact he ▸ List.prefix_rfl
    · rw [hissued, hexamined, hr.nonce?_of_unencrypted hstate]
      exact hnext

/-! ## A whole life -/

theorem regular_run (hr : r.Regular) (ops : List Op) : (r.run suite ops).Regular := by
  induction ops generalizing r with
  | nil => exact hr
  | cons op ops ih => exact ih (regular_after hr op)

theorem side_run (r : SessionRecord) (ops : List Op) : (r.run suite ops).side = r.side := by
  induction ops generalizing r with
  | nil => rfl
  | cons op ops ih => exact (ih (r.after suite op)).trans (performed suite r op).side_eq

theorem rank_le_run (r : SessionRecord) (ops : List Op) : r.state.rank ≤ (r.run suite ops).state.rank := by
  induction ops generalizing r with
  | nil => exact Nat.le_refl _
  | cons op ops ih => exact Nat.le_trans (performed suite r op).rank_le (ih (r.after suite op))

theorem run_of_failed (hr : r.Regular) (hfailed : r.state = .failed) (ops : List Op) : r.run suite ops = r := by
  induction ops with
  | nil => rfl
  | cons op ops ih =>
    rw [run, List.foldl_cons, after, ((performed suite r op).of_failed hr hfailed).1]
    exact ih

theorem Fresh.nonce?_eq (h : r.Fresh) : r.nonce? = none := by
  rcases h with ⟨clientId, rfl⟩ | ⟨secret, rfl⟩ <;> rfl

/-- Wherever a session is in its life: it holds what its state says and keeps
its side; from there on the state only goes forward; an error in a step of the
handshake or in opening a frame fails it, and nonce and cipher are gone; any other
error changes nothing; a failed session refuses everything and stays as it is; and
over its life one nonce is issued and examined at most. -/
theorem run_lifecycle (suite : CipherSuite) {r₀ : SessionRecord} (h₀ : r₀.Fresh) (ops : List Op) :
    let r := r₀.run suite ops
    r.Regular ∧ r.side = r₀.side ∧
      (∀ later, r.state.rank ≤ (r.run suite later).state.rank) ∧
      (∀ op e, (r.perform suite op).2 = .error e →
        if op.isGuarded then
          (r.after suite op).state = .failed ∧ (r.after suite op).nonce? = none ∧ (r.after suite op).cipher? = none
        else r.after suite op = r) ∧
      (r.state = .failed →
        (∀ op, op ≠ .fail → ∃ e, (r.perform suite op).2 = .error e) ∧ ∀ later, r.run suite later = r) ∧
      r₀.examinedIn suite ops <+: r₀.issuedIn suite ops ∧ (r₀.issuedIn suite ops).length ≤ 1 := by
  have hnonces := nonces_run suite h₀.regular ops
  rw [h₀.nonce?_eq, Option.toList_none, List.nil_append] at hnonces
  have hr : (r₀.run suite ops).Regular := regular_run h₀.regular ops
  refine ⟨hr, side_run r₀ ops, rank_le_run _, fun op e he => ?_, fun hfailed => ⟨fun op => ?_, ?_⟩, hnonces⟩
  · have hafter := (performed suite _ op).of_error hr he
    rw [after, hafter]
    split
    · exact ⟨rfl, rfl, rfl⟩
    · rfl
  · exact ((performed suite _ op).of_failed hr hfailed).2
  · exact run_of_failed hr hfailed

def repeated : List Op :=
  [.acceptHandshake (.start fun _ => .replicate 32 7) ⟨"front"⟩, .acceptKeyExchange 0 ⟨[], []⟩,
    .acceptKeyExchange 0 ⟨[], []⟩]

theorem run_lifecycle_repeated :
    (server (.replicate 32 9)).Fresh ∧
      let r := (server (.replicate 32 9)).run .standard repeated
      r.state = .failed ∧ (∀ later, r.run .standard later = r) ∧
        (server (.replicate 32 9)).examinedIn .standard repeated = [.replicate 32 7] ∧
        (server (.replicate 32 9)).examinedIn .standard repeated <+:
          (server (.replicate 32 9)).issuedIn .standard repeated ∧
        ((server (.replicate 32 9)).issuedIn .standard repeated).length ≤ 1 := by
  have hfresh : (server (.replicate 32 9)).Fresh := .inr ⟨_, rfl⟩
  have hfailed : ((server (.replicate 32 9)).run .standard repeated).state = .failed := by decide +kernel
  have hexamined : (server (.replicate 32 9)).examinedIn .standard repeated = [.replicate 32 7] := by decide +kernel
  obtain ⟨-, -, -, -, hstays, hnonces⟩ := run_lifecycle .standard hfresh repeated
  exact ⟨hfresh, hfailed, (hstays hfailed).2, hexamined, hnonces⟩

end SessionRecord

end OrderDesk
