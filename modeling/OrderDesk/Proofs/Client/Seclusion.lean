import Mathlib.Data.List.Induction
import OrderDesk.Client.Node
import OrderDesk.Proofs.Session.Frames

/-!
# A kiosk that is not yet encrypted

A kiosk that sends, dials, takes frames and lets time go by in any order. Its
registries change only over a frame on a connection that is encrypted, and a
connection becomes so in one way: the kiosk sends a key exchange, and then opens
the server's confirmation under the key that it drew.
Main result: `directory_eq_or_licensed`.
-/

namespace OrderDesk.Client

inductive Move
  | post (p : Packet) (awaited : Bool)
  | connect
  | refuse
  | receive (frame : Bytes)
  | forward
  | lose
  | expire
  | stop
  | tick

section
variable (suite : CipherSuite)

def after (c : Client) : Move → Client
  | .post p awaited => (c.post p awaited).1
  | .connect => (c.connect suite).client
  | .refuse => c.refuse
  | .receive frame => (c.receive suite frame).client
  | .forward => (c.forward suite).client
  | .lose => c.lose.client
  | .expire => c.expire.client
  | .stop => c.stop.client
  | .tick => c.tick.client

def run (c : Client) (ms : List Move) : Client := ms.foldl (after suite) c

/-- Over a frame on the connection of a generation the kiosk draws a session key
and sends a key exchange. -/
def Offers (c : Client) (frame : Bytes) (generation : Nat) (key : Key) : Prop :=
  ∃ connection opened body session draws exchange sealed, c.connection? = some connection ∧
    connection.generation = generation ∧ connection.session.decode suite frame = (opened, .ok (.hello body)) ∧
    opened.acceptHello suite c.draws body = ((session, draws), .ok exchange) ∧ key = c.draws.next ∧
    (session.encode suite (.keyExchange exchange)).2 = .ok sealed ∧ (c.receive suite frame).written = [sealed]

/-- A frame on the connection of a generation opens under the receive key of a
session key, and confirms that the handshake is complete. -/
def Confirms (c : Client) (frame : Bytes) (generation : Nat) (key : Key) : Prop :=
  ∃ connection cipher message cipher' body, c.connection? = some connection ∧ connection.generation = generation ∧
    connection.session.cipher? = some cipher ∧ cipher.receiveKey = FrameCipher.frameKey suite key .server ∧
    cipher.openFrame suite frame = .ok (message, cipher') ∧ Packet.decode message = .ok (.encryptComplete body)

/-- In the run the kiosk sent a key exchange on the connection of a generation. -/
def Offered (c : Client) (ms : List Move) (generation : Nat) (key : Key) : Prop :=
  ∃ pre frame post, ms = pre ++ .receive frame :: post ∧ (c.run suite pre).Offers suite frame generation key

/-- In the run the kiosk sent a key exchange on the connection of a generation,
and then opened the confirmation under its own receive key. -/
def Licensed (c : Client) (ms : List Move) (generation : Nat) : Prop :=
  ∃ key pre frame post, ms = pre ++ .receive frame :: post ∧ c.Offered suite pre generation key ∧
    (c.run suite pre).Confirms suite frame generation key

end

/-- What a move does to the connection: it is gone, or new, or it goes on, or a
frame takes its handshake one step further. -/
inductive Linked (suite : CipherSuite) (c : Client) (m : Move) : Option ClientConnection → Prop
  | gone : Linked suite c m none
  | dialed (connection : ClientConnection) (h : connection.session.state = .unencrypted) :
    Linked suite c m (some connection)
  | kept (connection : ClientConnection) (session : Session) (h : c.connection? = some connection)
    (hs : connection.session.Alike session) : Linked suite c m (some { connection with session })
  | offered (connection : ClientConnection) (session : Session) (frame : Bytes) (key : Key) (hm : m = .receive frame)
    (h : c.Offers suite frame connection.generation key) (hstate : session.state = .keyExchanged)
    (hkey : session.receiveKey? = some (FrameCipher.frameKey suite key .server)) :
    Linked suite c m (some { connection with session })
  | confirmed (connection : ClientConnection) (session : Session) (frame : Bytes) (hm : m = .receive frame)
    (h : c.connection? = some connection) (hbefore : connection.session.state = .keyExchanged)
    (hstate : session.state = .encrypted)
    (hopens : ∀ key, connection.session.receiveKey? = some (FrameCipher.frameKey suite key .server) →
      c.Confirms suite frame connection.generation key) : Linked suite c m (some { connection with session })

/-- What a move does to the kiosk: its registries change only over a frame on a
connection that is encrypted. -/
structure Does (suite : CipherSuite) (c : Client) (m : Move) (c' : Client) : Prop where
  linked : Linked suite c m c'.connection?
  directory : c'.kiosk.directory = c.kiosk.directory ∨
    ∃ connection, c.connection? = some connection ∧ connection.session.isEncrypted = true

variable {suite : CipherSuite} {c : Client} {m : Move} {connection : ClientConnection}

/-! ## What leaves the connection and the registries alone -/

structure Keeps (c c' : Client) : Prop where
  connection : c'.connection? = c.connection?
  directory : c'.kiosk.directory = c.kiosk.directory

theorem Keeps.refl (c : Client) : Keeps c c := ⟨rfl, rfl⟩

theorem Keeps.trans {c' c'' : Client} (h : Keeps c c') (h' : Keeps c' c'') : Keeps c c'' :=
  ⟨h'.connection.trans h.connection, h'.directory.trans h.directory⟩

theorem Keeps.ite {c' : Client} (h : Keeps c c') (p : Prop) [Decidable p] : Keeps c (if p then c' else c) := by
  split
  · exact h
  · exact .refl c

theorem Keeps.does {c' : Client} (h : Keeps c c') : Does suite c m c' := by
  refine ⟨?_, .inl h.directory⟩
  rw [h.connection]
  cases hconnection : c.connection? with
  | none => exact .gone
  | some connection => exact .kept connection connection.session hconnection (.refl _)

theorem dial_keeps (c : Client) : Keeps c c.dial := by
  unfold dial
  split <;> exact ⟨rfl, rfl⟩

theorem post_keeps (c : Client) (p : Packet) (awaited : Bool) : Keeps c (c.post p awaited).1 := by
  unfold post
  split
  · exact ⟨rfl, rfl⟩
  · next outbox _ =>
    have houtbox : Keeps c { c with outbox } := ⟨rfl, rfl⟩
    exact houtbox.trans (dial_keeps _)

theorem sync_keeps (c : Client) : Keeps c c.sync := (post_keeps c everything false).ite (c.isEncrypted = true)

theorem welcome_keeps (c : Client) (generation : Nat) : Keeps c (c.welcome generation) := by
  have hopened : Keeps c ({ c with outbox := c.outbox.openLink generation }.publish .encrypted) := ⟨rfl, rfl⟩
  exact (hopened.trans (post_keeps _ everything false)).ite (c.outbox.isCurrent generation = true)

/-- The kiosk after what its timers do at a full millisecond. -/
def timed (c : Client) : Client :=
  let c := { c with clock := c.clock + 1 }
  let c := if c.isDue c.config.reconnectInterval then c.dial else c
  let c := if c.isDue c.config.drainInterval then { c with outbox := c.outbox.drain } else c
  if c.isDue c.config.syncInterval then c.sync else c

theorem timed_keeps (c : Client) : Keeps c c.timed := by
  let c₁ := { c with clock := c.clock + 1 }
  let c₂ := if c₁.isDue c₁.config.reconnectInterval then c₁.dial else c₁
  let c₃ := if c₂.isDue c₂.config.drainInterval then { c₂ with outbox := c₂.outbox.drain } else c₂
  have h₁ : Keeps c c₁ := ⟨rfl, rfl⟩
  have h₂ : Keeps c₁ c₂ := (dial_keeps c₁).ite _
  have hdrained : Keeps c₂ { c₂ with outbox := c₂.outbox.drain } := ⟨rfl, rfl⟩
  have h₃ : Keeps c₂ c₃ := hdrained.ite _
  have h₄ : Keeps c₃ c.timed := (sync_keeps c₃).ite _
  exact h₁.trans (h₂.trans (h₃.trans h₄))

theorem Does.write {c' : Client} (hdirectory : c'.kiosk.directory = c.kiosk.directory ∨
      ∃ connection, c.connection? = some connection ∧ connection.session.isEncrypted = true)
    {session : Session} {ps : List Packet}
    (h : ∀ session' frames, session.encodeAll suite ps = (session', frames, .ok ()) →
      Linked suite c m (some { connection with session := session' })) :
    Does suite c m (c'.write suite connection session ps).client := by
  unfold Client.write
  split
  · next session' frames hout => exact ⟨h session' frames hout, hdirectory⟩
  · exact ⟨.gone, hdirectory⟩

/-! ## A frame -/

theorem acceptHello_ok {s s' : Session} {draws draws' : Draws} {p : Hello} {exchange : KeyExchange}
    (h : s.acceptHello suite draws p = ((s', draws'), .ok exchange)) :
    s'.state = .keyExchanged ∧ s'.receiveKey? = some (FrameCipher.frameKey suite draws.next .server) := by
  unfold Session.acceptHello at h
  split at h
  · split at h
    · cases h
    · dsimp only at h
      split at h
      · cases h
      · cases h
        exact ⟨rfl, rfl⟩
  · cases h

theorem acceptEncryptComplete_ok {s s' : Session} {p : EncryptComplete} (h : s.acceptEncryptComplete p = (s', .ok ())) :
    s.state = .keyExchanged ∧ s'.state = .encrypted := by
  unfold Session.acceptEncryptComplete at h
  split at h
  · next hphase =>
    cases h
    rw [Session.state, hphase]
    exact ⟨rfl, rfl⟩
  · cases h

theorem exists_cipher_of_keyExchanged {s : Session} (h : s.state = .keyExchanged) :
    ∃ cipher, s.cipher? = some cipher := by
  obtain ⟨party, phase⟩ := s
  cases phase with
  | keyExchanged cipher => exact ⟨cipher, rfl⟩
  | _ => cases h

theorem does_serve (h : c.connection? = some connection) {session : Session} (hs : connection.session.Alike session)
    (he : connection.session.isEncrypted = true) (p : Packet) :
    Does suite c m (c.serve suite connection session p).client := by
  have hacts : ∃ connection, c.connection? = some connection ∧ connection.session.isEncrypted = true :=
    ⟨connection, h, he⟩
  unfold serve
  split
  · split
    · next kiosk replies hout =>
      refine .write (.inr hacts) fun session' frames hframes => .kept connection session' h (hs.trans ?_)
      have halike := Session.alike_encodeAll suite session replies
      rwa [hframes] at halike
    · next kiosk e hout =>
      dsimp only
      split
      · exact ⟨.gone, .inr hacts⟩
      · exact ⟨.kept connection session h hs, .inr hacts⟩
  · exact ⟨.kept connection session h hs, .inl rfl⟩

theorem receive_taken (h : c.connection? = some connection) (he : connection.session.isEncrypted = false)
    {frame : Bytes} {opened : Session} {p : Packet} (hdecode : connection.session.decode suite frame = (opened, .ok p)) :
    c.receive suite frame = c.shakeHands suite connection opened p := by
  rw [receive, h]
  dsimp only
  rw [hdecode]
  dsimp only
  rw [if_neg (Bool.eq_false_iff.1 he)]

theorem does_hello (h : c.connection? = some connection) (he : connection.session.isEncrypted = false) {frame : Bytes}
    {opened : Session} {body : Hello} (hdecode : connection.session.decode suite frame = (opened, .ok (.hello body))) :
    Does suite c (.receive frame) (c.receive suite frame).client := by
  have hreceive := receive_taken h he hdecode
  cases haccept : opened.acceptHello suite c.draws body with
  | mk out outcome =>
    obtain ⟨session, draws⟩ := out
    cases outcome with
    | error e =>
      rw [hreceive, shakeHands, haccept]
      exact ⟨.gone, .inl rfl⟩
    | ok exchange =>
      have hwrite : c.receive suite frame =
          { c with draws }.write suite connection session [.keyExchange exchange] := by
        rw [hreceive, shakeHands, haccept]
      obtain ⟨hstate, hkey⟩ := acceptHello_ok haccept
      rw [hwrite]
      refine .write ?_ fun session' frames hframes => ?_
      · exact .inl rfl
      have halike := Session.alike_encodeAll suite session [.keyExchange exchange]
      rw [hframes] at halike
      obtain ⟨sealed, hsealed, rfl⟩ := Session.encodeAll_singleton hframes
      have hwritten : (c.receive suite frame).written = [sealed] := by
        rw [hwrite, Client.write, hframes]
      exact .offered connection session' frame c.draws.next rfl
        ⟨connection, opened, body, session, draws, exchange, sealed, h, rfl, hdecode, haccept, rfl,
          congrArg Prod.snd hsealed, hwritten⟩
        (halike.state.trans hstate) (halike.key.trans hkey)

theorem does_encryptComplete (h : c.connection? = some connection) (he : connection.session.isEncrypted = false)
    {frame message : Bytes} {body : EncryptComplete}
    (hopen : connection.session.openFrame suite frame = (connection.session.counted, .ok message))
    (hp : Packet.decode message = .ok (.encryptComplete body))
    (hdecode : connection.session.decode suite frame = (connection.session.counted, .ok (.encryptComplete body))) :
    Does suite c (.receive frame) (c.receive suite frame).client := by
  rw [receive_taken h he hdecode, shakeHands]
  split
  · exact ⟨.gone, .inl rfl⟩
  · next session haccept =>
    obtain ⟨hcounted, hstate⟩ := acceptEncryptComplete_ok haccept
    have hbefore := connection.session.alike_counted.state.symm.trans hcounted
    obtain ⟨cipher, hcipher⟩ := exists_cipher_of_keyExchanged hbefore
    obtain ⟨cipher', hopens⟩ := Session.openFrame_under hopen hcipher
    have hkeeps := welcome_keeps (c.resume connection session) connection.generation
    refine ⟨?_, .inl hkeeps.directory⟩
    have hresumed : (Turn.stay ((c.resume connection session).welcome connection.generation)).client.connection? =
        some { connection with session } := hkeeps.connection
    rw [hresumed]
    refine .confirmed connection session frame rfl h hbefore hstate fun key hkey => ?_
    have hreceive : cipher.receiveKey = FrameCipher.frameKey suite key .server := by
      rw [Session.receiveKey?, hcipher] at hkey
      exact Option.some.inj hkey
    exact ⟨connection, cipher, message, cipher', body, h, rfl, hcipher, hreceive, hopens, hp⟩

theorem does_receive (suite : CipherSuite) (c : Client) (frame : Bytes) :
    Does suite c (.receive frame) (c.receive suite frame).client := by
  cases h : c.connection? with
  | none =>
    have hstay : c.receive suite frame = .stay c := by rw [receive, h]
    rw [hstay]
    exact (Keeps.refl c).does
  | some connection =>
    have hd := Session.decoded suite connection.session frame
    generalize hdecode : connection.session.decode suite frame = out at hd
    cases hd with
    | unopened e =>
      rw [receive, h]
      dsimp only
      rw [hdecode]
      exact ⟨.gone, .inl rfl⟩
    | garbled message e =>
      rw [receive, h]
      dsimp only
      rw [hdecode]
      exact ⟨.kept connection _ h connection.session.alike_counted, .inl rfl⟩
    | barred message p e =>
      rw [receive, h]
      dsimp only
      rw [hdecode]
      exact ⟨.gone, .inl rfl⟩
    | taken message p hopen hp =>
      by_cases he : connection.session.isEncrypted = true
      · rw [receive, h]
        dsimp only
        rw [hdecode]
        dsimp only
        rw [if_pos he]
        exact does_serve h connection.session.alike_counted he p
      · have hnot := Bool.eq_false_iff.2 he
        cases p with
        | hello body => exact does_hello h hnot hdecode
        | encryptComplete body => exact does_encryptComplete h hnot hopen hp hdecode
        | _ =>
          rw [receive_taken h hnot hdecode]
          exact ⟨.gone, .inl rfl⟩

/-! ## Every move -/

theorem does_connect (suite : CipherSuite) (c : Client) : Does suite c .connect (c.connect suite).client := by
  let connection : ClientConnection := ⟨c.outbox.channels.length, .client c.config.clientId, c.clock⟩
  let dialed := { c with dialing := false, outbox := c.outbox.install }.publish .connected
  have hconnect : c.connect suite = if c.stopped then .stay { c with dialing := false }
      else dialed.write suite connection connection.session [.handShake ⟨c.config.clientId⟩] := rfl
  rw [hconnect]
  split
  · exact Keeps.does ⟨rfl, rfl⟩
  · refine .write ?_ fun session' frames hframes => .dialed _ ?_
    · exact .inl rfl
    · have halike := Session.alike_encodeAll suite connection.session [.handShake ⟨c.config.clientId⟩]
      rw [hframes] at halike
      exact halike.state

theorem does_forward (suite : CipherSuite) (c : Client) : Does suite c .forward (c.forward suite).client := by
  unfold forward
  split
  · exact (Keeps.refl c).does
  · next connection h =>
    split
    · split
      · exact (Keeps.refl c).does
      · next out outbox htake =>
        have halike : connection.session.Alike (connection.session.encode suite out.packet).1 :=
          Session.alike_sealFrame suite connection.session out.packet.kind out.packet.encode
        split
        · next session frame hout =>
          rw [hout] at halike
          exact ⟨.kept connection session h halike, .inl rfl⟩
        · exact ⟨.gone, .inl rfl⟩
    · exact (Keeps.refl c).does

theorem Keeps.does_lose {c' : Client} (h : Keeps c c') : Does suite c m c'.lose.client := by
  unfold lose
  split
  · exact h.does
  · exact ⟨.gone, .inl h.directory⟩

theorem Keeps.does_expire {c' : Client} (h : Keeps c c') : Does suite c m c'.expire.client := by
  unfold expire
  split
  · exact h.does
  · split
    · exact h.does
    · exact ⟨.gone, .inl h.directory⟩

theorem does_stop (c : Client) : Does suite c m c.stop.client := by
  unfold stop
  split
  · exact (Keeps.refl c).does
  · exact Keeps.does_lose ⟨rfl, rfl⟩

theorem tick_of_none (h : c.timed.connection? = none) :
    c.tick = if c.stopped then .stay { c with clock := c.clock + 1 } else .stay c.timed := by
  unfold timed at h
  unfold tick
  dsimp only at h ⊢
  rw [h]
  rfl

theorem tick_of_some (h : c.timed.connection? = some connection) :
    c.tick = if c.stopped then .stay { c with clock := c.clock + 1 }
      else if connection.since + c.timed.config.handshakeTimeout ≤ c.timed.clock then c.timed.expire
        else .stay c.timed := by
  unfold timed at h
  unfold tick
  dsimp only at h ⊢
  rw [h]
  rfl

theorem does_tick (c : Client) : Does suite c m c.tick.client := by
  have hwaited : Keeps c { c with clock := c.clock + 1 } := ⟨rfl, rfl⟩
  have htimed := timed_keeps c
  cases h : c.timed.connection? with
  | none =>
    rw [tick_of_none h]
    split
    · exact hwaited.does
    · exact htimed.does
  | some connection =>
    rw [tick_of_some h]
    split
    · exact hwaited.does
    · split
      · exact htimed.does_expire
      · exact htimed.does

theorem does (suite : CipherSuite) (c : Client) (m : Move) : Does suite c m (c.after suite m) := by
  cases m with
  | post p awaited => exact (post_keeps c p awaited).does
  | connect => exact does_connect suite c
  | refuse => exact Keeps.does ⟨rfl, rfl⟩
  | receive frame => exact does_receive suite c frame
  | forward => exact does_forward suite c
  | lose => exact (Keeps.refl c).does_lose
  | expire => exact (Keeps.refl c).does_expire
  | stop => exact does_stop c
  | tick => exact does_tick c

/-! ## Whole runs -/

theorem run_append (c : Client) (ms ms' : List Move) : c.run suite (ms ++ ms') = (c.run suite ms).run suite ms' :=
  List.foldl_append

theorem Offered.append {ms : List Move} {generation : Nat} {key : Key} (h : c.Offered suite ms generation key)
    (ms' : List Move) : c.Offered suite (ms ++ ms') generation key := by
  obtain ⟨pre, frame, post, rfl, hoffers⟩ := h
  exact ⟨pre, frame, post ++ ms', by simp, hoffers⟩

theorem Licensed.append {ms : List Move} {generation : Nat} (h : c.Licensed suite ms generation) (ms' : List Move) :
    c.Licensed suite (ms ++ ms') generation := by
  obtain ⟨key, pre, frame, post, rfl, hrest⟩ := h
  exact ⟨key, pre, frame, post ++ ms', by simp, hrest⟩

/-- How far the handshake of the connection has come, the run accounts for. -/
structure Earned (suite : CipherSuite) (c : Client) (ms : List Move) (connection : ClientConnection) : Prop where
  offered : connection.session.state = .keyExchanged → ∃ key, c.Offered suite ms connection.generation key ∧
    connection.session.receiveKey? = some (FrameCipher.frameKey suite key .server)
  licensed : connection.session.state = .encrypted → c.Licensed suite ms connection.generation

theorem earned_run (hc : c.connection? = none) (ms : List Move) :
    ∀ connection, (c.run suite ms).connection? = some connection → c.Earned suite ms connection := by
  induction ms using List.reverseRecOn with
  | nil =>
    intro connection h
    cases hc.symm.trans h
  | append_singleton ms m ih =>
    have hrun : c.run suite (ms ++ [m]) = (c.run suite ms).after suite m := run_append c ms [m]
    have hlinked := (does suite (c.run suite ms) m).linked
    rw [← hrun] at hlinked
    intro connection h
    rw [h] at hlinked
    cases hlinked with
    | dialed _ hstate => exact ⟨fun h => (nomatch hstate.symm.trans h), fun h => (nomatch hstate.symm.trans h)⟩
    | kept before session hbefore hs =>
      have hearned := ih before hbefore
      refine ⟨fun h => ?_, fun h => (hearned.licensed (hs.state.symm.trans h)).append [m]⟩
      obtain ⟨key, hoffered, hkey⟩ := hearned.offered (hs.state.symm.trans h)
      exact ⟨key, hoffered.append [m], hs.key.trans hkey⟩
    | offered _ session frame key hm hoffers hstate hkey =>
      subst hm
      exact ⟨fun _ => ⟨key, ⟨ms, frame, [], rfl, hoffers⟩, hkey⟩, fun h => (nomatch hstate.symm.trans h)⟩
    | confirmed before session frame hm hbefore hexchanged hstate hopens =>
      subst hm
      refine ⟨fun h => (nomatch hstate.symm.trans h), fun _ => ?_⟩
      obtain ⟨key, hoffered, hkey⟩ := (ih before hbefore).offered hexchanged
      exact ⟨key, ms, frame, [], rfl, hoffered, hopens key hkey⟩

/-- A move leaves the registries of a kiosk as they are, or its connection has a
license. -/
theorem directory_eq_or_licensed (suite : CipherSuite) (config : ClientConfig) (directory : Directory) (draws : Draws)
    (ms : List Move) (m : Move) :
    let c := (start config directory draws).run suite ms
    (c.after suite m).kiosk.directory = c.kiosk.directory ∨
      ∃ connection, c.connection? = some connection ∧
        (start config directory draws).Licensed suite ms connection.generation := by
  intro c
  refine (does suite c m).directory.imp_right ?_
  rintro ⟨connection, h, he⟩
  exact ⟨connection, h, (earned_run rfl ms connection h).licensed (of_decide_eq_true he)⟩

/-! ## Frames that carry no packet, or the wrong one -/

theorem receive_garbled (h : c.connection? = some connection) {frame : Bytes}
    (hgarbles : connection.session.Garbles suite frame) :
    c.receive suite frame = .stay (c.resume connection connection.session.counted) := by
  obtain ⟨e, hdecode⟩ := Session.decode_garbled hgarbles
  rw [receive, h]
  dsimp only
  rw [hdecode]
  rfl

/-- The session that a frame of the handshake leaves. -/
def reached (suite : CipherSuite) (session : Session) (draws : Draws) (frame : Bytes) : Session :=
  match session.decode suite frame with
  | (session, .error _) => session
  | (session, .ok (.hello body)) => (session.acceptHello suite draws body).1.1
  | (session, .ok (.encryptComplete body)) => (session.acceptEncryptComplete body).1
  | (session, .ok _) => session.fail

theorem reached_misplaced {session : Session} {frame : Bytes} (h : session.Misplaces suite frame) (draws : Draws) :
    reached suite session draws frame = session.counted.fail := by
  unfold reached
  obtain ⟨e, hdecode⟩ | ⟨p, hdecode, -, hexpects⟩ := Session.decode_misplaced h
  · rw [hdecode]
  · rw [hdecode]
    cases p with
    | hello body => exact congrArg (·.1.1) (Session.acceptHello_unexpected suite draws body hexpects)
    | encryptComplete body => exact congrArg (·.1) (Session.acceptEncryptComplete_unexpected body hexpects)
    | _ => rfl

/-- The connection of a generation is over: the kiosk has none, its channel takes
nothing more, no link is left to it, and that it is gone was published. -/
structure Over (c : Client) (generation : Nat) (t : Turn) : Prop where
  gone : t.client.connection? = none
  shut : t.client.outbox.isOpen generation = false
  unlinked : t.client.outbox.isCurrent generation = false
  published : t.client.kiosk.events = c.kiosk.events ++ [.disconnected]

theorem over_finish (c : Client) (connection : ClientConnection) (session : Session) :
    c.Over connection.generation (Turn.finish (.stay (c.resume connection session)) connection) where
  gone := rfl
  shut := (c.outbox.teardown connection.generation).isOpen_close connection.generation
  unlinked := c.outbox.isCurrent_teardown connection.generation
  published := rfl

theorem receive_misplaced (h : c.connection? = some connection) {frame : Bytes}
    (hmisplaces : connection.session.Misplaces suite frame) :
    c.receive suite frame = Turn.finish (.stay (c.resume connection connection.session.counted.fail)) connection := by
  obtain ⟨e, hdecode⟩ | ⟨p, hdecode, he, hexpects⟩ := Session.decode_misplaced hmisplaces
  · rw [receive, h]
    dsimp only
    rw [hdecode]
    rfl
  · rw [receive_taken h he hdecode]
    cases p with
    | hello body => rw [shakeHands, Session.acceptHello_unexpected suite c.draws body hexpects]
    | encryptComplete body => rw [shakeHands, Session.acceptEncryptComplete_unexpected body hexpects]
    | _ => rfl

end OrderDesk.Client
