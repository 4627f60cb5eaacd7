import OrderDesk.Session.FrameCipher

/-!
# Sessions

A session is one end of a connection. It goes through the phases of the
handshake and then seals and opens frames. Its nonce and its cipher come with
the phases that need them. `SessionRecord` keeps them in fields of their own
beside the state; `Session.run_record` says that the two stay together.
-/

namespace OrderDesk

inductive Party
  | client (clientId : String)
  /-- The server knows the name of the kiosk once the kiosk has announced
  itself. -/
  | server (secret : Key) (clientId? : Option String)
  deriving DecidableEq, Repr

/-- How far a session has come, with what it needs to go on. -/
inductive Phase
  | unencrypted
  | helloSent (nonce : Key)
  | keyExchanged (cipher : FrameCipher)
  | encrypted (cipher : FrameCipher)
  | failed
  deriving DecidableEq, Repr

def Phase.state : Phase → SessionState
  | unencrypted => .unencrypted
  | helloSent _ => .helloSent
  | keyExchanged _ => .keyExchanged
  | encrypted _ => .encrypted
  | failed => .failed

structure Session where
  party : Party
  phase : Phase
  deriving DecidableEq, Repr

namespace Session

def client (clientId : String) : Session := ⟨.client clientId, .unencrypted⟩

def server (secret : Key) : Session := ⟨.server secret none, .unencrypted⟩

def side (s : Session) : Side :=
  match s.party with
  | .client _ => .client
  | .server _ _ => .server

def state (s : Session) : SessionState := s.phase.state

def clientId? (s : Session) : Option String :=
  match s.party with
  | .client clientId => some clientId
  | .server _ clientId? => clientId?

def isEncrypted (s : Session) : Bool := s.state = .encrypted

def nonce? (s : Session) : Option Key :=
  match s.phase with
  | .helloSent nonce => some nonce
  | _ => none

def cipher? (s : Session) : Option FrameCipher :=
  match s.phase with
  | .keyExchanged cipher | .encrypted cipher => some cipher
  | _ => none

def fail (s : Session) : Session := { s with phase := .failed }

def keysSummary (publicKey : Key) : String :=
  let bytes := publicKey.toBytes.map fun b => Decimal.render b.toNat
  "ServerKeyPair \x7b public: [" ++ String.intercalate ", " bytes ++ "], .. \x7d"

/-! ## Frames -/

def allows (s : Session) (kind : PacketKind) : Bool := s.state ≠ .failed && (s.isEncrypted || kind.isHandshake)

def checkAllowed (s : Session) (kind : PacketKind) : Except SessionError Unit :=
  if s.allows kind then .ok () else .error (.illegalState s.state kind)

def withCipher (s : Session) (cipher : FrameCipher) : Session :=
  match s.phase with
  | .keyExchanged _ => { s with phase := .keyExchanged cipher }
  | .encrypted _ => { s with phase := .encrypted cipher }
  | _ => s

variable (suite : CipherSuite)

/-- The frame of an encoded packet: sealed once there is a cipher, unless the
packet is one that travels in the clear. A refusal changes nothing. -/
def sealFrame (s : Session) (kind : PacketKind) (message : Bytes) : Session × Except SessionError Bytes :=
  match s.checkAllowed kind with
  | .error e => (s, .error e)
  | .ok () =>
    match s.cipher? with
    | none => (s, .ok message)
    | some cipher =>
      if kind.travelsInClear then (s, .ok message)
      else
        match cipher.sealFrame suite message with
        | .error e => (s, .error e)
        | .ok (frame, cipher) => (s.withCipher cipher, .ok frame)

/-- The encoded packet of a frame; frames are taken to be sealed once there is
a cipher. A frame that does not open fails the session. -/
def openFrame (s : Session) (frame : Bytes) : Session × Except SessionError Bytes :=
  if s.state = .failed then (s, .error (.protocolViolation .sessionFailed))
  else
    match s.cipher? with
    | none => (s, .ok frame)
    | some cipher =>
      match cipher.openFrame suite frame with
      | .error e => (s.fail, .error e)
      | .ok (message, cipher) => (s.withCipher cipher, .ok message)

end Session

end OrderDesk
