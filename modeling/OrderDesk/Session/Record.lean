import OrderDesk.Draws
import OrderDesk.Packet.Basic
import OrderDesk.Session.FrameCipher
import OrderDesk.Session.KeyTransport
import OrderDesk.Text.Quoted

/-!
# The record of a session

What one end of a connection keeps, field by field. Nonce, secret and cipher are
optional each, whatever the state. An operation changes one field after the
other, and what it changed before an error stays changed; the steps of the
handshake and the opening of frames are guarded, so that an error in them fails
the session.
-/

namespace OrderDesk

structure SessionRecord where
  side : Side
  state : SessionState
  clientId? : Option String
  /-- On the server: issued with the hello, and taken by the key exchange. -/
  nonce? : Option Key
  /-- The server's secret. -/
  secret? : Option Key
  cipher? : Option FrameCipher
  deriving DecidableEq, Repr

namespace SessionRecord

def client (clientId : String) : SessionRecord where
  side := .client
  state := .unencrypted
  clientId? := some clientId
  nonce? := none
  secret? := none
  cipher? := none

def server (secret : Key) : SessionRecord where
  side := .server
  state := .unencrypted
  clientId? := none
  nonce? := none
  secret? := some secret
  cipher? := none

def isEncrypted (r : SessionRecord) : Bool := r.state = .encrypted

def fail (r : SessionRecord) : SessionRecord := { r with state := .failed, nonce? := none, cipher? := none }

def summary (r : SessionRecord) : String :=
  let clientId :=
    match r.clientId? with
    | some clientId => "Some(" ++ Text.quoted clientId ++ ")"
    | none => "None"
  "Session \x7b side: " ++ r.side.label ++ ", state: " ++ r.state.label ++ ", client_id: " ++ clientId ++ ", .. \x7d"

/-! ## Steps -/

/-- What is done to a record, with draws at hand. An error takes nothing
back. -/
abbrev Step (α : Type) := ExceptT SessionError (StateM (SessionRecord × Draws)) α

variable {α : Type}

def Step.on (step : Step α) (r : SessionRecord) (draws : Draws) : (SessionRecord × Draws) × Except SessionError α :=
  ((ExceptT.run step).run (r, draws)).swap

def current : Step SessionRecord := return (← get).1

def change (f : SessionRecord → SessionRecord) : Step Unit := modify fun (r, draws) => (f r, draws)

def draw : Step Key := modifyGet fun (r, draws) => (draws.next, (r, draws.rest))

/-- An error in the step leaves the session failed. -/
def guarded (step : Step α) : Step α :=
  tryCatch step fun e => do
    change fail
    throw e

/-! ## Running a step -/

section
variable {β : Type} (r : SessionRecord) (draws : Draws)

@[simp] theorem on_pure (a : α) : Step.on (pure a) r draws = ((r, draws), .ok a) := rfl

@[simp] theorem on_throw (e : SessionError) : Step.on (throw e : Step α) r draws = ((r, draws), .error e) := rfl

@[simp] theorem on_bind (step : Step α) (f : α → Step β) :
    Step.on (step >>= f) r draws =
      match step.on r draws with
      | ((r, draws), .ok a) => (f a).on r draws
      | (rest, .error e) => (rest, .error e) := by
  unfold Step.on
  simp only [bind, ExceptT.bind, ExceptT.mk, ExceptT.run, StateT.run, StateT.bind]
  cases step (r, draws) with
  | mk outcome rest => cases outcome <;> rfl

@[simp] theorem on_map (f : α → β) (step : Step α) :
    Step.on (f <$> step) r draws = ((step.on r draws).1, (step.on r draws).2.map f) := by
  unfold Step.on
  simp only [Functor.map, ExceptT.map, ExceptT.mk, ExceptT.run, StateT.run, bind, StateT.bind]
  cases step (r, draws) with
  | mk outcome rest => cases outcome <;> rfl

@[simp] theorem on_ite (p : Prop) [Decidable p] (step step' : Step α) :
    Step.on (if p then step else step') r draws = if p then step.on r draws else step'.on r draws := by
  split <;> rfl

@[simp] theorem on_ofExcept (outcome : Except SessionError α) :
    Step.on (MonadExcept.ofExcept outcome) r draws = ((r, draws), outcome) := by
  cases outcome <;> rfl

@[simp] theorem on_current : current.on r draws = ((r, draws), .ok r) := rfl

@[simp] theorem on_change (f : SessionRecord → SessionRecord) : (change f).on r draws = ((f r, draws), .ok ()) := rfl

@[simp] theorem on_draw : draw.on r draws = ((r, draws.rest), .ok draws.next) := rfl

@[simp] theorem on_guarded (step : Step α) :
    (guarded step).on r draws =
      match step.on r draws with
      | (rest, .ok a) => (rest, .ok a)
      | ((r, draws), .error e) => ((r.fail, draws), .error e) := by
  unfold Step.on guarded
  simp only [tryCatch, tryCatchThe, MonadExceptOf.tryCatch, ExceptT.tryCatch, ExceptT.mk, ExceptT.run, StateT.run, bind,
    StateT.bind]
  cases step (r, draws) with
  | mk outcome rest => cases outcome <;> rfl

end

def expect (side : Side) (state : SessionState) (kind : PacketKind) : Step Unit := do
  let r ← current
  if r.side ≠ side ∨ r.state ≠ state then
    throw (.protocolViolation (.outOfPlace kind r.side r.state))

theorem on_expect_of {r : SessionRecord} {side : Side} {state : SessionState} (h : r.side = side ∧ r.state = state)
    (draws : Draws) (kind : PacketKind) : (expect side state kind).on r draws = ((r, draws), .ok ()) := by
  simp [expect, h.1, h.2]

theorem on_expect_of_not {r : SessionRecord} {side : Side} {state : SessionState}
    (h : ¬(r.side = side ∧ r.state = state)) (draws : Draws) (kind : PacketKind) :
    (expect side state kind).on r draws =
      ((r, draws), .error (.protocolViolation (.outOfPlace kind r.side r.state))) := by
  have hplace : r.side ≠ side ∨ r.state ≠ state := Decidable.not_and_iff_or_not.1 h
  simp only [expect, on_bind, on_current, if_pos hplace, on_throw]

/-- The nonce, which is gone from then on. -/
def takeNonce : Step Key := do
  match (← current).nonce? with
  | none => throw (.protocolViolation .noNonceIssued)
  | some nonce =>
    change fun r => { r with nonce? := none }
    return nonce

theorem on_takeNonce {r : SessionRecord} {nonce : Key} (h : r.nonce? = some nonce) (draws : Draws) :
    takeNonce.on r draws = (({ r with nonce? := none }, draws), .ok nonce) := by
  simp only [takeNonce, on_bind, on_current, h, on_change, on_pure]

theorem on_takeNonce_of_none {r : SessionRecord} (h : r.nonce? = none) (draws : Draws) :
    takeNonce.on r draws = ((r, draws), .error (.protocolViolation .noNonceIssued)) := by
  simp only [takeNonce, on_bind, on_current, h, on_throw]

def serverSecret : Step Key := do
  match (← current).secret? with
  | none => throw (.crypto .serverKeyMissing)
  | some secret => return secret

theorem on_serverSecret {r : SessionRecord} {secret : Key} (h : r.secret? = some secret) (draws : Draws) :
    serverSecret.on r draws = ((r, draws), .ok secret) := by
  simp only [serverSecret, on_bind, on_current, h, on_pure]

theorem on_serverSecret_of_none {r : SessionRecord} (h : r.secret? = none) (draws : Draws) :
    serverSecret.on r draws = ((r, draws), .error (.crypto .serverKeyMissing)) := by
  simp only [serverSecret, on_bind, on_current, h, on_throw]

open MonadExcept (ofExcept)

/-! ## The handshake -/

variable (suite : CipherSuite)

def begin : Step HandShake := do
  expect .client .unencrypted .handShake
  return ⟨(← current).clientId?.getD ""⟩

def acceptHandshake (p : HandShake) : Step Hello := guarded do
  expect .server .unencrypted .handShake
  let secret ← serverSecret
  let nonce ← draw
  change fun r => { r with nonce? := some nonce }
  change fun r => { r with clientId? := some p.clientId }
  change fun r => { r with state := .helloSent }
  return ⟨(suite.publicKey secret).toBytes, nonce.toBytes⟩

def acceptHello (p : Hello) : Step KeyExchange := guarded do
  expect .client .unencrypted .hello
  if p.nonce.length ≠ KeyTransport.nonceLength then
    throw (.protocolViolation (.nonceLength p.nonce.length))
  let sessionKey ← draw
  let serverPublic ← ofExcept (KeyTransport.keyOfBytes p.publicKey)
  let ephemeral ← draw
  let wrapped := KeyTransport.wrapped suite ephemeral serverPublic sessionKey
  let signedNonce := KeyTransport.signedNonce suite sessionKey p.nonce
  change fun r => { r with cipher? := some (.start suite .client sessionKey) }
  change fun r => { r with state := .keyExchanged }
  return ⟨wrapped, signedNonce⟩

/-- The nonce is taken before anything is checked that the packet holds. -/
def acceptKeyExchange (now : UInt64) (p : KeyExchange) : Step EncryptComplete := guarded do
  expect .server .helloSent .keyExchange
  let issued ← takeNonce
  let secret ← serverSecret
  let sessionKey ← ofExcept (KeyTransport.unwrap suite secret p.encryptedSessionKey)
  ofExcept (KeyTransport.confirm suite sessionKey issued p.signedNonce)
  change fun r => { r with cipher? := some (.start suite .server sessionKey) }
  change fun r => { r with state := .encrypted }
  return ⟨now⟩

def acceptEncryptComplete (_ : EncryptComplete) : Step Unit := guarded do
  expect .client .keyExchanged .encryptComplete
  change fun r => { r with state := .encrypted }

/-! ## Frames -/

def checkAllowed (kind : PacketKind) : Step Unit := do
  let r ← current
  if r.state = .failed ∨ (¬r.isEncrypted ∧ ¬kind.isHandshake) then
    throw (.illegalState r.state kind)

def sealFrame (kind : PacketKind) (message : Bytes) : Step Bytes := do
  checkAllowed kind
  match (← current).cipher? with
  | none => return message
  | some cipher =>
    if kind.travelsInClear then return message
    else
      let (frame, cipher) ← ofExcept (cipher.sealFrame suite message)
      change fun r => { r with cipher? := some cipher }
      return frame

def openFrame (frame : Bytes) : Step Bytes := do
  if (← current).state = .failed then
    throw (.protocolViolation .sessionFailed)
  guarded do
    match (← current).cipher? with
    | none => return frame
    | some cipher =>
      let (message, cipher) ← ofExcept (cipher.openFrame suite frame)
      change fun r => { r with cipher? := some cipher }
      return message

end SessionRecord

end OrderDesk
