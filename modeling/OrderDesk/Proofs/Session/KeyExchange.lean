import OrderDesk.Proofs.Session.Handshake

/-!
# Which key exchanges a server takes

A suite is exact if a message comes out of nothing but what it was sealed into.
Then a server takes a key exchange only if it is waiting for one, the session
key is wrapped for its secret, and the nonce that it issued is sealed under
that session key. Anything else fails the session.
-/

namespace OrderDesk

namespace CipherSuite

def Exact (suite : CipherSuite) : Prop :=
  ∀ key nonce associated text message,
    suite.unsealed? key nonce associated text = some message ↔ text = suite.sealed key nonce associated message

theorem standard_exact : standard.Exact := fun _ _ _ _ _ => Sealing.unsealed?_eq_some_iff

end CipherSuite

namespace KeyTransport

variable {suite : CipherSuite}

/-- A session key is wrapped for the holder of a secret: behind some public key it
is sealed under the key that is derived from what the two agree on, with both
public keys as the salt, the one in front first. -/
def Wraps (suite : CipherSuite) (secret sessionKey : Key) (wrapped : Bytes) : Prop :=
  wrapped.length = 80 ∧ ∃ ephemeralPublic : Key,
    let salt := ephemeralPublic.toBytes ++ (suite.publicKey secret).toBytes
    let key := suite.derive (suite.agree secret ephemeralPublic).toBytes salt (Bytes.ofString "kiosk v1 wrap")
    wrapped = ephemeralPublic.toBytes ++ suite.sealed key (.replicate 12 0) [] sessionKey.toBytes

/-- A nonce is sealed, bound to itself, under the key that is derived from a session
key to confirm it. -/
def Confirms (suite : CipherSuite) (sessionKey nonce : Key) (signed : Bytes) : Prop :=
  let key := suite.derive sessionKey.toBytes [] (Bytes.ofString "kiosk v1 confirm")
  signed = suite.sealed key (.replicate 12 0) nonce.toBytes nonce.toBytes

theorem ofCounter_zero : Nonce.ofCounter 0 = .replicate 12 0 := by decide

theorem keyOfBytes_eq_ok_iff {bs : Bytes} {k : Key} : keyOfBytes bs = .ok k ↔ bs = k.toBytes := by
  rw [@eq_comm _ bs, ← Key.ofBytes?_eq_some_iff, keyOfBytes]
  cases Key.ofBytes? bs <;> simp

theorem exists_toBytes_append {bs : Bytes} (h : 32 ≤ bs.length) : ∃ (k : Key) (rest : Bytes), bs = k.toBytes ++ rest := by
  have hlength : (bs.take 32).length = 32 := List.length_take_of_le h
  refine ⟨⟨(bs.take 32).toArray, hlength⟩, bs.drop 32, ?_⟩
  simp [Key.toBytes]

theorem length_of_unwrap {secret k : Key} {wrapped : Bytes} (h : unwrap suite secret wrapped = .ok k) :
    wrapped.length = wrappedLength := by
  refine Decidable.byContradiction fun hlength => ?_
  rw [unwrap, if_pos hlength] at h
  cases h

theorem unwrap_eq_ok_iff (hs : suite.Exact) {secret k : Key} {wrapped : Bytes} :
    unwrap suite secret wrapped = .ok k ↔ Wraps suite secret k wrapped := by
  constructor
  · intro h
    have hlength := length_of_unwrap h
    have hle : 32 ≤ wrapped.length := by
      rw [hlength]
      decide
    obtain ⟨e, text, rfl⟩ := exists_toBytes_append hle
    refine ⟨hlength, e, ?_⟩
    rw [unwrap_append hlength, ofCounter_zero] at h
    split at h
    · next bs hbs =>
      obtain rfl := keyOfBytes_eq_ok_iff.1 h
      rw [(hs _ _ _ _ _).1 hbs]
      rfl
    · cases h
  · rintro ⟨hlength, e, rfl⟩
    rw [unwrap_append hlength, ofCounter_zero, wrapKey, wrapLabel, (hs _ _ _ _ _).2 rfl]
    exact keyOfBytes_toBytes k

theorem Wraps.unique (hs : suite.Exact) {secret k k' : Key} {wrapped : Bytes} (h : Wraps suite secret k wrapped)
    (h' : Wraps suite secret k' wrapped) : k = k' :=
  Except.ok.inj (((unwrap_eq_ok_iff hs).2 h).symm.trans ((unwrap_eq_ok_iff hs).2 h'))

theorem wraps_wrapped (hs : suite.Seals) {ephemeral secret : Key} (ha : suite.Agrees ephemeral secret) (k : Key) :
    Wraps suite secret k (wrapped suite ephemeral (suite.publicKey secret) k) := by
  refine ⟨length_wrapped hs _ _ _, suite.publicKey ephemeral, ?_⟩
  rw [wrapped, ha, ofCounter_zero]
  rfl

theorem confirms_signedNonce (sessionKey nonce : Key) :
    Confirms suite sessionKey nonce (signedNonce suite sessionKey nonce.toBytes) := by
  rw [signedNonce, ofCounter_zero]
  rfl

theorem confirm_eq_ok_iff (hs : suite.Exact) {sessionKey issued : Key} {signed : Bytes} :
    confirm suite sessionKey issued signed = .ok () ↔ Confirms suite sessionKey issued signed := by
  rw [Confirms, ← hs, confirm, confirmKey, confirmLabel, ofCounter_zero]
  split
  · next hnone => simp [hnone]
  · next returned hreturned =>
    rw [hreturned, Option.some.injEq]
    split
    · next hsame => exact iff_of_true rfl (Bytes.same_iff.1 hsame)
    · next hne => exact iff_of_false (by simp) (mt Bytes.same_iff.2 hne)

end KeyTransport

namespace Session

open KeyTransport

variable {suite : CipherSuite}

theorem sessionKeyOf_eq_ok_iff (hs : suite.Exact) {secret nonce k : Key} {p : KeyExchange} :
    sessionKeyOf suite secret nonce p = .ok k ↔
      Wraps suite secret k p.encryptedSessionKey ∧ Confirms suite k nonce p.signedNonce := by
  rw [← unwrap_eq_ok_iff hs, ← confirm_eq_ok_iff hs, sessionKeyOf]
  cases unwrap suite secret p.encryptedSessionKey with
  | error e => simp [bind, Except.bind]
  | ok k' =>
    show (confirm suite k' nonce p.signedNonce >>= fun _ => .ok k') = .ok k ↔ _
    cases hconfirm : confirm suite k' nonce p.signedNonce with
    | error e =>
      constructor
      · rintro ⟨⟩
      · rintro ⟨⟨⟩, hok⟩
        cases hconfirm.symm.trans hok
    | ok =>
      refine ⟨?_, And.left⟩
      rintro ⟨⟩
      exact ⟨rfl, hconfirm⟩

/-- A key exchange proves a session key to a server that has issued a nonce and
waits for the proof. -/
def Proves (suite : CipherSuite) (s : Session) (p : KeyExchange) (k : Key) : Prop :=
  ∃ secret clientId? nonce, s = ⟨.server secret clientId?, .helloSent nonce⟩ ∧
    Wraps suite secret k p.encryptedSessionKey ∧ Confirms suite k nonce p.signedNonce

theorem acceptKeyExchange_of_proves (hs : suite.Exact) {s : Session} {p : KeyExchange} {k : Key}
    (h : Proves suite s p k) (now : UInt64) :
    s.acceptKeyExchange suite now p = (⟨s.party, .encrypted (.start suite .server k)⟩, .ok ⟨now⟩) := by
  obtain ⟨secret, clientId?, nonce, rfl, hproof⟩ := h
  rw [acceptKeyExchange]
  simp only [(sessionKeyOf_eq_ok_iff hs).2 hproof]

theorem acceptKeyExchange_of_not_proves (hs : suite.Exact) {s : Session} {p : KeyExchange}
    (h : ¬∃ k, Proves suite s p k) (now : UInt64) :
    ∃ e, s.acceptKeyExchange suite now p = (s.fail, .error e) := by
  unfold acceptKeyExchange
  split
  · next secret clientId? nonce hparty hphase =>
    have hwaits : s = ⟨.server secret clientId?, .helloSent nonce⟩ := by rw [← hparty, ← hphase]
    cases hkey : sessionKeyOf suite secret nonce p with
    | error e => exact ⟨e, rfl⟩
    | ok k => exact absurd ⟨k, secret, clientId?, nonce, hwaits, (sessionKeyOf_eq_ok_iff hs).1 hkey⟩ h
  · exact ⟨_, rfl⟩

/-- **Key exchange.** A session takes a key exchange exactly if it is a server
that waits for one and some session key is wrapped for its secret, with the
nonce that it issued sealed under that key. It then seals and opens frames as
the server's end of that session key, under one key derived from it for each
direction. After anything else it has failed, with neither nonce nor cipher. -/
theorem acceptKeyExchange_exact (hs : suite.Exact) (s : Session) (now : UInt64) (p : KeyExchange) :
    let out := s.acceptKeyExchange suite now p
    ((∃ done, out.2 = .ok done) ↔ ∃ k, Proves suite s p k) ∧
      (∀ k, Proves suite s p k →
        let toServer := suite.derive k.toBytes [] (Bytes.ofString "kiosk v1 c2s")
        let toClient := suite.derive k.toBytes [] (Bytes.ofString "kiosk v1 s2c")
        out.2 = .ok ⟨now⟩ ∧ out.1.state = .encrypted ∧
          out.1.cipher? = some { sendKey := toClient, receiveKey := toServer, sent := 0, received := 0 }) ∧
      ((¬∃ k, Proves suite s p k) →
        (∃ e, out.2 = .error e) ∧ out.1.state = .failed ∧ out.1.nonce? = none ∧ out.1.cipher? = none) := by
  intro out
  have htaken : ∀ k, Proves suite s p k → out = (⟨s.party, .encrypted (.start suite .server k)⟩, .ok ⟨now⟩) :=
    fun k hk => acceptKeyExchange_of_proves hs hk now
  refine ⟨⟨?_, ?_⟩, fun k hk => ?_, fun hno => ?_⟩
  · rintro ⟨done, hdone⟩
    refine Classical.byContradiction fun hno => ?_
    obtain ⟨e, he⟩ := acceptKeyExchange_of_not_proves hs hno now
    cases (congrArg (·.2) he).symm.trans hdone
  · rintro ⟨k, hk⟩
    exact ⟨_, congrArg (·.2) (htaken k hk)⟩
  · rw [htaken k hk]
    exact ⟨rfl, rfl, rfl⟩
  · obtain ⟨e, he⟩ := acceptKeyExchange_of_not_proves hs hno now
    rw [show out = _ from he]
    exact ⟨⟨e, rfl⟩, rfl, rfl, rfl⟩

/-- What a kiosk sends that has drawn fives for the session key and sevens for
the ephemeral secret, and was issued threes. -/
def offer : KeyExchange where
  encryptedSessionKey :=
    wrapped .standard (.replicate 32 7) (CipherSuite.standard.publicKey (.replicate 32 9)) (.replicate 32 5)
  signedNonce := signedNonce .standard (.replicate 32 5) (Key.toBytes (.replicate 32 3))

def waiting (nonce : Key) : Session := ⟨.server (.replicate 32 9) (some "front"), .helloSent nonce⟩

/-- The server that issued the nonce takes the offer. A server that issued
another nonce fails, and so does the first one if a byte is missing. -/
theorem acceptKeyExchange_exact_offer :
    CipherSuite.standard.Exact ∧
      ((waiting (.replicate 32 3)).acceptKeyExchange .standard 0 offer).1.cipher? =
        some (.start .standard .server (.replicate 32 5)) ∧
      ((waiting (.replicate 32 4)).acceptKeyExchange .standard 0 offer).1.state = .failed ∧
      ((waiting (.replicate 32 3)).acceptKeyExchange .standard 0
        { offer with encryptedSessionKey := offer.encryptedSessionKey.tail }).1.state = .failed := by
  have hs := CipherSuite.standard_exact
  have hagrees : CipherSuite.standard.Agrees (.replicate 32 7) (.replicate 32 9) := by decide +kernel
  have hwraps := wraps_wrapped CipherSuite.standard_seals hagrees (.replicate 32 5)
  have hlength := length_wrapped CipherSuite.standard_seals (.replicate 32 7)
    (CipherSuite.standard.publicKey (.replicate 32 9)) (.replicate 32 5)
  refine ⟨hs, ?_, ?_, ?_⟩
  · have htaken := (acceptKeyExchange_exact hs (waiting (.replicate 32 3)) 0 offer).2.1
    exact (htaken (.replicate 32 5) ⟨_, _, _, rfl, hwraps, confirms_signedNonce _ _⟩).2.2
  · refine ((acceptKeyExchange_exact hs (waiting (.replicate 32 4)) 0 offer).2.2 ?_).2.1
    rintro ⟨k, _, _, _, ⟨⟩, hk, hsigned⟩
    obtain rfl := hk.unique hs hwraps
    exact absurd (Sealing.message_eq_of_sealed_eq hsigned) (by decide)
  · refine ((acceptKeyExchange_exact hs (waiting (.replicate 32 3)) 0 _).2.2 ?_).2.1
    rintro ⟨k, _, _, _, ⟨⟩, ⟨hk, -⟩, -⟩
    rw [List.length_tail] at hk
    rw [show offer.encryptedSessionKey.length = _ from hlength] at hk
    exact absurd hk (by decide)

end Session

end OrderDesk
