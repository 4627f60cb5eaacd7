import OrderDesk.Proofs.Client.Stream

/-!
# The transcript of a link

What a kiosk writes on the link of one generation along a run in which it sends,
dials, loses links and lets time go by in any order. The frames and the packets
of the link are its turns; every other move at most adds to its channel.
Main result: `transcribes_run`.
-/

namespace OrderDesk

namespace Client

section
variable (suite : CipherSuite)

def moved (c : Client) : Move → Turn
  | .post p awaited => .stay (c.post p awaited).1
  | .connect => c.connect suite
  | .refuse => .stay c.refuse
  | .receive frame => c.receive suite frame
  | .forward => c.forward suite
  | .lose => c.lose
  | .expire => c.expire
  | .stop => c.stop
  | .tick => c.tick

/-- The generation whose link a move writes on: the one that it makes, or the one
that there is. -/
def speaker? (c : Client) : Move → Option Nat
  | .connect => some c.outbox.channels.length
  | _ => c.connection?.map (·.generation)

def linkOf? (c : Client) (generation : Nat) : Option ClientConnection :=
  c.connection?.filter (·.generation = generation)

/-- The frames that a move writes on a link. -/
def wrote (c : Client) (generation : Nat) (m : Move) : List Bytes :=
  if c.speaker? m = some generation then (c.moved suite m).written else []

/-- The turns that a move is for a link: an encrypted one answers a packet that
it opens, and it takes the packet that has waited longest in its channel. -/
def said (c : Client) (generation : Nat) : Move → List Said
  | .receive frame =>
    ((c.linkOf? generation).bind (·.session.opens? suite frame)).toList.map fun p => .replied (c.kiosk.answers p)
  | .forward =>
    if (c.linkOf? generation).any (·.session.isEncrypted) then (c.outbox.waiting generation).head?.toList.map .taken
    else []
  | _ => []

/-- What a move hands to a link. -/
def queued (c : Client) (generation : Nat) (m : Move) : List Packet :=
  ((c.after suite m).outbox.waiting generation).drop (c.outbox.waiting generation).length

def record (c : Client) (generation : Nat) (x : Transcript) (m : Move) : Transcript :=
  x.add (c.wrote suite generation m) (c.queued suite generation m) (c.said suite generation m)

def transcript (c : Client) (generation : Nat) (ms : List Move) : Transcript :=
  Transcript.along (after suite) (fun c => c.record suite generation) .blank c ms

/-- The transcript of a link can be told of it, and of what waits in its
channel. -/
structure Transcribes (c : Client) (generation : Nat) (x : Transcript) : Prop where
  written : Written suite x
  queue : x.taken ++ c.outbox.waiting generation = x.queued
  waiting : Packet.AllSealed (c.outbox.waiting generation)
  pending : Packet.AllSealed c.outbox.pending
  voiced : ∀ connection, c.connection? = some connection → connection.generation = generation →
    Voiced suite x connection.session
  current : ∀ connection, c.connection? = some connection → connection.generation < c.outbox.channels.length
  unborn : c.outbox.channels.length ≤ generation → x = .blank

end

variable {suite : CipherSuite} {c c' c'' : Client} {connection : ClientConnection} {x : Transcript} {t : Turn}
  {turns : List Said} {generation : Nat} {m : Move}

theorem moved_client (c : Client) (m : Move) : (c.moved suite m).client = c.after suite m := by cases m <;> rfl

theorem transcript_snoc (c : Client) (generation : Nat) (ms : List Move) (m : Move) :
    c.transcript suite generation (ms ++ [m]) =
      (c.run suite ms).record suite generation (c.transcript suite generation ms) m :=
  Transcript.along_snoc ..

/-! ## What a turn does to the outbox -/

/-- A turn of a link adds to channels, and the link is there or gone. -/
structure Goes (c : Client) (generation : Nat) (t : Turn) : Prop where
  connection : ∀ connection, t.client.connection? = some connection → connection.generation = generation
  feeds : ∀ g, c.outbox.Feeds t.client.outbox g

theorem goes_stay (h : c'.connection? = some connection) (hg : connection.generation = generation)
    (hfeeds : ∀ g, c.outbox.Feeds c'.outbox g) : c.Goes generation (.stay c') := by
  refine ⟨fun connection' h' => ?_, hfeeds⟩
  cases h.symm.trans h'
  exact hg

theorem Goes.finish (h : c.Goes generation t) (connection : ClientConnection) :
    c.Goes generation (t.finish connection) := by
  refine ⟨fun _ hnone => (Option.some_ne_none _ hnone.symm).elim, fun g => ?_⟩
  exact (h.feeds g).trans (t.client.outbox.feeds_ended connection.generation g)

theorem goes_resume (hfeeds : ∀ g, c.outbox.Feeds c'.outbox g) (connection : ClientConnection) (session : Session) :
    c.Goes connection.generation (.stay (c'.resume connection session)) := by
  have hlink : (c'.resume connection session).connection? = some { connection with session } := rfl
  exact goes_stay hlink rfl hfeeds

theorem goes_write (hfeeds : ∀ g, c.outbox.Feeds c'.outbox g) (connection : ClientConnection) (session : Session)
    (ps : List Packet) : c.Goes connection.generation (c'.write suite connection session ps) := by
  unfold write
  split
  · next session' frames _ =>
    have hgoes := goes_resume hfeeds connection session'
    exact ⟨hgoes.connection, hgoes.feeds⟩
  · next session' frames _ _ =>
    have hgoes := (goes_resume hfeeds connection session').finish connection
    exact ⟨hgoes.connection, hgoes.feeds⟩

theorem feeds_post (c : Client) {p : Packet} (hp : p.kind.travelsInClear = false) (awaited : Bool) (g : Nat) :
    c.outbox.Feeds (c.post p awaited).1.outbox g := by
  rw [Outbox.outbox_post]
  exact c.outbox.feeds_send hp awaited g

theorem feeds_welcome (c : Client) (generation g : Nat) : c.outbox.Feeds (c.welcome generation).outbox g := by
  unfold welcome
  split
  · have hposted := feeds_post ({ c with outbox := c.outbox.openLink generation }.publish .encrypted)
      (p := everything) rfl false g
    exact (c.outbox.feeds_openLink generation g).trans hposted
  · exact .refl c.outbox g

theorem goes_receive (suite : CipherSuite) (h : c.connection? = some connection) (frame : Bytes) :
    c.Goes connection.generation (c.receive suite frame) := by
  have hsame : ∀ g, c.outbox.Feeds c.outbox g := .refl c.outbox
  unfold receive
  rw [h]
  dsimp only
  split
  · next session e _ =>
    split
    · exact (goes_resume hsame connection session).finish connection
    · exact goes_resume hsame connection session
  · next session p _ =>
    split
    · unfold serve
      split
      · split
        · next kiosk replies _ =>
          have hkiosk : ∀ g, c.outbox.Feeds { c with kiosk }.outbox g := hsame
          exact goes_write hkiosk connection session replies
        · next kiosk e _ =>
          have hkiosk : ∀ g, c.outbox.Feeds { c with kiosk }.outbox g := hsame
          dsimp only
          split
          · exact (goes_resume hkiosk connection session).finish connection
          · exact goes_resume hkiosk connection session
      · exact goes_resume hsame connection session
    · unfold shakeHands
      split
      · split
        · next session draws e _ =>
          have hdraws : ∀ g, c.outbox.Feeds { c with draws }.outbox g := hsame
          exact (goes_resume hdraws connection session).finish connection
        · next session draws exchange _ =>
          have hdraws : ∀ g, c.outbox.Feeds { c with draws }.outbox g := hsame
          exact goes_write hdraws connection session [.keyExchange exchange]
      · split
        · next session _ _ => exact (goes_resume hsame connection session).finish connection
        · next session _ =>
          have hwelcomed := welcome_keeps (c.resume connection session) connection.generation
          have hlink : ((c.resume connection session).welcome connection.generation).connection? =
              some { connection with session } := hwelcomed.connection
          exact goes_stay hlink rfl (feeds_welcome (c.resume connection session) connection.generation)
      · exact (goes_resume hsame connection session.fail).finish connection

theorem forward_cases (suite : CipherSuite) (h : c.connection? = some connection) :
    (c.forward suite = .stay c ∧
        (connection.session.isEncrypted = true → c.outbox.waiting connection.generation = [])) ∨
      ∃ p, connection.session.isEncrypted = true ∧
        c.outbox.Takes (c.forward suite).client.outbox connection.generation p ∧
        ∀ connection', (c.forward suite).client.connection? = some connection' →
          connection'.generation = connection.generation := by
  unfold forward
  rw [h]
  dsimp only
  by_cases he : connection.session.isEncrypted = true
  · rw [if_pos he]
    cases htake : c.outbox.take? connection.generation with
    | none => exact .inl ⟨rfl, fun _ => Outbox.waiting_of_take?_eq_none htake⟩
    | some taken =>
      obtain ⟨out, outbox⟩ := taken
      have htakes := Outbox.takes_of_take? htake
      refine .inr ⟨out.packet, he, ?_⟩
      dsimp only
      split
      · refine ⟨htakes, fun connection' h' => ?_⟩
        cases h'
        rfl
      · exact ⟨htakes.ended _, fun _ hnone => (Option.some_ne_none _ hnone.symm).elim⟩
  · rw [if_neg he]
    exact .inl ⟨rfl, fun he' => absurd he' he⟩

/-! ## Turns that write nothing -/

/-- A turn that writes nothing: the link goes on as it was or is gone, and
channels have only grown. -/
structure Idle (c : Client) (t : Turn) : Prop where
  written : t.written = []
  connection : t.client.connection? = none ∨ t.client.connection? = c.connection?
  feeds : ∀ g, c.outbox.Feeds t.client.outbox g

theorem Idle.trans (h : c.Idle (.stay c')) (h' : c'.Idle t) : c.Idle t :=
  ⟨h'.written, h'.connection.elim .inl fun hsame => h.connection.imp hsame.trans hsame.trans,
    fun g => (h.feeds g).trans (h'.feeds g)⟩

theorem idle_stay (hconnection : c'.connection? = c.connection?) (houtbox : c'.outbox = c.outbox) :
    c.Idle (.stay c') :=
  ⟨rfl, .inr hconnection, fun g => houtbox ▸ .refl c.outbox g⟩

theorem idle_ite {p : Prop} [Decidable p] (h : c.Idle (.stay c')) : c.Idle (.stay (if p then c' else c)) := by
  split
  · exact h
  · exact idle_stay rfl rfl

theorem idle_post (c : Client) {p : Packet} (hp : p.kind.travelsInClear = false) (awaited : Bool) :
    c.Idle (.stay (c.post p awaited).1) :=
  ⟨rfl, .inr (post_keeps c p awaited).connection, feeds_post c hp awaited⟩

theorem idle_dial (c : Client) : c.Idle (.stay c.dial) :=
  idle_stay (dial_keeps c).connection (Outbox.outbox_dial c)

theorem idle_timed (c : Client) : c.Idle (.stay c.timed) := by
  -- a tick does four things in turn, and none of them writes
  let c₁ := { c with clock := c.clock + 1 }
  let c₂ := if c₁.isDue c₁.config.reconnectInterval then c₁.dial else c₁
  let c₃ := if c₂.isDue c₂.config.drainInterval then { c₂ with outbox := c₂.outbox.drain } else c₂
  have h₁ : c.Idle (.stay c₁) := idle_stay rfl rfl
  have h₂ : c₁.Idle (.stay c₂) := idle_ite (idle_dial c₁)
  have hdrained : c₂.Idle (.stay { c₂ with outbox := c₂.outbox.drain }) := ⟨rfl, .inr rfl, c₂.outbox.feeds_drain⟩
  have h₃ : c₂.Idle (.stay c₃) := idle_ite hdrained
  have hsynced : c₃.Idle (.stay c₃.sync) := idle_ite (idle_post c₃ (p := everything) rfl false)
  have h₄ : c₃.Idle (.stay c.timed) := idle_ite hsynced
  exact h₁.trans (h₂.trans (h₃.trans h₄))

theorem idle_finish (h : c.Idle (.stay c')) (connection : ClientConnection) :
    c.Idle (Turn.finish (.stay c') connection) := by
  refine ⟨rfl, .inl rfl, fun g => ?_⟩
  exact (h.feeds g).trans (c'.outbox.feeds_ended connection.generation g)

theorem idle_lose (c : Client) : c.Idle c.lose := by
  unfold lose
  split
  · exact idle_stay rfl rfl
  · next connection _ => exact idle_finish (idle_stay rfl rfl) connection

theorem idle_expire (c : Client) : c.Idle c.expire := by
  unfold expire
  split
  · exact idle_stay rfl rfl
  · next connection _ =>
    split
    · exact idle_stay rfl rfl
    · exact ⟨rfl, .inl rfl, (idle_finish (c := c) (idle_stay rfl rfl) connection).feeds⟩

theorem idle_stop (c : Client) : c.Idle c.stop := by
  unfold stop
  split
  · exact idle_stay rfl rfl
  · have hunlinked : c.Idle (.stay { c with stopped := true, dialing := false, outbox := c.outbox.unlink }) :=
      ⟨rfl, .inr rfl, c.outbox.feeds_unlink⟩
    exact hunlinked.trans (idle_lose _)

theorem idle_tick (c : Client) : c.Idle c.tick := by
  have hstopped : c.Idle (.stay { c with clock := c.clock + 1 }) := idle_stay rfl rfl
  have htimed := idle_timed c
  cases h : c.timed.connection? with
  | none =>
    rw [tick_of_none h]
    split
    · exact hstopped
    · exact htimed
  | some connection =>
    rw [tick_of_some h]
    split
    · exact hstopped
    · split
      · exact htimed.trans (idle_expire c.timed)
      · exact htimed

/-! ## Steps -/

/-- A link goes on as it was, if it is still there, and its channel has only
grown. -/
structure Stays (c c' : Client) (generation : Nat) : Prop where
  connection : ∀ connection, c'.connection? = some connection → connection.generation = generation →
    c.connection? = some connection
  current : (∀ connection, c.connection? = some connection → connection.generation < c.outbox.channels.length) →
    ∀ connection, c'.connection? = some connection → connection.generation < c'.outbox.channels.length
  feeds : c.outbox.Feeds c'.outbox generation

theorem Idle.stays (h : c.Idle t) (generation : Nat) : c.Stays t.client generation := by
  have hsame : ∀ connection, t.client.connection? = some connection → c.connection? = some connection := by
    intro connection h'
    obtain hnone | hsame := h.connection
    · cases hnone.symm.trans h'
    · exact hsame.symm.trans h'
  exact ⟨fun connection h' _ => hsame connection h',
    fun hcurrent connection h' => Nat.lt_of_lt_of_le (hcurrent connection (hsame connection h')) (h.feeds 0).length_le,
    h.feeds generation⟩

theorem Transcribes.stay (h : c.Transcribes suite generation x) (hstays : c.Stays (c.after suite m) generation)
    (hwrote : c.wrote suite generation m = []) (hsaid : c.said suite generation m = []) :
    (c.after suite m).Transcribes suite generation (c.record suite generation x m) := by
  obtain ⟨added, hadded, hwaiting⟩ := hstays.feeds.waiting h.pending
  have hshifts : Transcript.Shifts (c.outbox.waiting generation) ((c.after suite m).outbox.waiting generation) [] :=
    hwaiting ▸ .fed h.waiting hadded rfl
  rw [record, hwrote, hsaid]
  refine ⟨h.written.queued _, hshifts.queue h.queue [], hshifts.allSealed, hstays.feeds.pending h.pending,
    fun connection h' hg => (h.voiced connection (hstays.connection connection h' hg) hg).queued _,
    hstays.current h.current, fun hlength => ?_⟩
  have hnone : c.queued suite generation m = [] := by
    rw [queued, Outbox.waiting_of_length_le hlength, List.drop_nil]
  rw [hnone, Transcript.add_nil]
  exact h.unborn (Nat.le_trans hstays.feeds.length_le hlength)

theorem Transcribes.turn (h : c.Transcribes suite connection.generation x) (hc : c.connection? = some connection)
    (hwrote : c.wrote suite connection.generation m = (c.moved suite m).written)
    (hkeeping : Keeping suite x (c.moved suite m) (c.said suite connection.generation m))
    (hshifts : Transcript.Shifts (c.outbox.waiting connection.generation)
      ((c.after suite m).outbox.waiting connection.generation) (c.said suite connection.generation m))
    (hpending : Packet.AllSealed (c.after suite m).outbox.pending)
    (hlength : c.outbox.channels.length ≤ (c.after suite m).outbox.channels.length)
    (hlink : ∀ connection', (c.after suite m).connection? = some connection' →
      connection'.generation = connection.generation) :
    (c.after suite m).Transcribes suite connection.generation (c.record suite connection.generation x m) := by
  -- the link is of a generation that there is, so that `unborn` has nothing to say
  have hcurrent := Nat.lt_of_lt_of_le (h.current connection hc) hlength
  rw [record, hwrote]
  refine ⟨hkeeping.written _, hshifts.queue h.queue _, hshifts.allSealed, hpending, fun connection' h' _ => ?_,
    fun connection' h' => (hlink connection' h').symm ▸ hcurrent, fun hle => absurd hcurrent (Nat.not_lt.2 hle)⟩
  exact hkeeping.voiced connection' ((c.moved_client m).symm ▸ h') _

theorem linkOf?_self (hc : c.connection? = some connection) : c.linkOf? connection.generation = some connection := by
  rw [linkOf?, hc, Option.filter_some, if_pos (decide_eq_true rfl)]

theorem linkOf?_of_ne (hlink : ∀ connection, c.connection? = some connection → connection.generation ≠ generation) :
    c.linkOf? generation = none := by
  rw [linkOf?]
  refine Option.filter_eq_none_iff.2 fun connection h hg => ?_
  exact hlink connection h (of_decide_eq_true hg)

theorem wrote_self (hc : c.connection? = some connection) (hm : c.speaker? m = c.connection?.map (·.generation)) :
    c.wrote suite connection.generation m = (c.moved suite m).written := by
  rw [wrote, hm, hc]
  exact if_pos rfl

theorem wrote_of_ne (hlink : ∀ connection, c.connection? = some connection → connection.generation ≠ generation)
    (hm : c.speaker? m = c.connection?.map (·.generation)) : c.wrote suite generation m = [] := by
  rw [wrote, hm]
  refine if_neg fun hg => ?_
  obtain ⟨connection, hc, hg⟩ := Option.map_eq_some_iff.1 hg
  exact hlink connection hc hg

theorem said_of_ne (hlink : ∀ connection, c.connection? = some connection → connection.generation ≠ generation)
    (m : Move) : c.said suite generation m = [] := by
  cases m with
  | receive | forward =>
    rw [said, linkOf?_of_ne hlink]
    rfl
  | _ => rfl

theorem stays_of_ne (hc : c.connection? = some connection) (hne : connection.generation ≠ generation)
    (hlink : ∀ connection', c'.connection? = some connection' → connection'.generation = connection.generation)
    (hfeeds : c.outbox.Feeds c'.outbox generation) : c.Stays c' generation :=
  ⟨fun connection' h' hg => absurd ((hlink connection' h').symm.trans hg) hne,
    fun hcurrent connection' h' =>
      Nat.lt_of_lt_of_le (hlink connection' h' ▸ hcurrent connection hc) hfeeds.length_le, hfeeds⟩

theorem stays_receive (hlink : ∀ connection, c.connection? = some connection → connection.generation ≠ generation)
    (frame : Bytes) : c.Stays (c.receive suite frame).client generation := by
  cases hc : c.connection? with
  | none =>
    have hstay : c.receive suite frame = .stay c := by rw [receive, hc]
    rw [hstay]
    exact (idle_stay rfl rfl).stays generation
  | some connection =>
    have hgoes := goes_receive suite hc frame
    exact stays_of_ne hc (hlink connection hc) hgoes.connection (hgoes.feeds generation)

theorem stays_forward (hlink : ∀ connection, c.connection? = some connection → connection.generation ≠ generation) :
    c.Stays (c.forward suite).client generation := by
  cases hc : c.connection? with
  | none =>
    have hstay : c.forward suite = .stay c := by rw [forward, hc]
    rw [hstay]
    exact (idle_stay rfl rfl).stays generation
  | some connection =>
    obtain ⟨hstay, -⟩ | ⟨p, -, htakes, hsame⟩ := forward_cases suite hc
    · rw [hstay]
      exact (idle_stay rfl rfl).stays generation
    · exact stays_of_ne hc (hlink connection hc) hsame (htakes.feeds (hlink connection hc).symm)

theorem transcribes_receive (h : c.Transcribes suite connection.generation x) (hc : c.connection? = some connection)
    (frame : Bytes) :
    (c.after suite (.receive frame)).Transcribes suite connection.generation
      (c.record suite connection.generation x (.receive frame)) := by
  obtain ⟨hlink, hfeeds⟩ := goes_receive suite hc frame
  obtain ⟨added, hadded, hwaiting⟩ := (hfeeds connection.generation).waiting h.pending
  have hafter : (c.after suite (.receive frame)).outbox.waiting connection.generation =
      c.outbox.waiting connection.generation ++ added := hwaiting
  have hsaid : c.said suite connection.generation (.receive frame) =
      (connection.session.opens? suite frame).toList.map fun p => .replied (c.kiosk.answers p) := by
    rw [said, linkOf?_self hc]
    rfl
  refine h.turn hc (wrote_self hc rfl) ?_ ?_ ((hfeeds 0).pending h.pending) (hfeeds 0).length_le hlink
  · rw [hsaid]
    exact keeping_receive hc (h.voiced connection hc rfl) frame
  · rw [hafter, hsaid]
    refine .fed h.waiting hadded ?_
    rw [List.filterMap_map]
    exact List.filterMap_eq_nil_iff.2 fun _ _ => rfl

theorem transcribes_forward (h : c.Transcribes suite connection.generation x) (hc : c.connection? = some connection) :
    (c.after suite .forward).Transcribes suite connection.generation
      (c.record suite connection.generation x .forward) := by
  have hsaid : c.said suite connection.generation .forward =
      if connection.session.isEncrypted then (c.outbox.waiting connection.generation).head?.toList.map .taken
      else [] := by
    rw [said, linkOf?_self hc]
    rfl
  have hkeeping := keeping_forward hc (h.voiced connection hc rfl) h.waiting
  rw [← hsaid] at hkeeping
  have hafter : c.after suite .forward = (c.forward suite).client := rfl
  obtain ⟨hstay, hempty⟩ | ⟨p, he, htakes, hlink⟩ := forward_cases suite hc
  · have hnone : c.said suite connection.generation .forward = [] := by
      rw [hsaid]
      split
      · next he =>
        rw [hempty he]
        rfl
      · rfl
    rw [hstay] at hafter
    refine h.turn hc (wrote_self hc rfl) hkeeping ?_ (hafter ▸ h.pending) (hafter ▸ Nat.le_refl _) ?_
    · rw [hafter, hnone]
      exact .unmoved h.waiting rfl
    · intro connection' h'
      rw [hafter] at h'
      cases hc.symm.trans h'
      rfl
  · have hwaiting := h.waiting
    refine h.turn hc (wrote_self hc rfl) hkeeping ?_ ?_ (Nat.le_of_eq htakes.length_eq.symm) hlink
    · rw [hafter, hsaid, if_pos he]
      rw [htakes.head] at hwaiting ⊢
      exact .taking hwaiting
    · rw [hafter, htakes.pending]
      exact h.pending

/-! ### A new link -/

theorem connect_eq (suite : CipherSuite) (c : Client) :
    c.connect suite = if c.stopped then .stay { c with dialing := false } else
      ⟨({ c with dialing := false, outbox := c.outbox.install }.publish .connected).resume
          ⟨c.outbox.channels.length, .client c.config.clientId, c.clock⟩ (.client c.config.clientId),
        [(Packet.handShake ⟨c.config.clientId⟩).encode], []⟩ := by
  have hout : (Session.client c.config.clientId).encodeAll suite [.handShake ⟨c.config.clientId⟩] =
      (.client c.config.clientId, [(Packet.handShake ⟨c.config.clientId⟩).encode], .ok ()) :=
    Session.encodeAll_clear rfl (.inl rfl)
  have hconnect : c.connect suite = if c.stopped then .stay { c with dialing := false } else
      ({ c with dialing := false, outbox := c.outbox.install }.publish .connected).write suite
        ⟨c.outbox.channels.length, .client c.config.clientId, c.clock⟩ (.client c.config.clientId)
        [.handShake ⟨c.config.clientId⟩] := rfl
  rw [hconnect, write, hout]

/-- A link comes with the name of the kiosk written, and nothing in its channel. -/
theorem transcribes_born (h : c.Transcribes suite generation x) (hstopped : c.stopped = false)
    (hg : c.outbox.channels.length = generation) :
    (c.after suite .connect).Transcribes suite generation (c.record suite generation x .connect) := by
  have hconnect := connect_eq suite c
  rw [if_neg (Bool.eq_false_iff.1 hstopped)] at hconnect
  have hafter : c.after suite .connect = (c.connect suite).client := rfl
  have hblank := h.unborn (Nat.le_of_eq hg)
  have hwrote : c.wrote suite generation .connect = [(Packet.handShake ⟨c.config.clientId⟩).encode] := by
    have hwritten : c.moved suite .connect = c.connect suite := rfl
    rw [wrote, speaker?, if_pos (congrArg some hg), hwritten, hconnect]
  rw [hconnect] at hafter
  have hwaiting : (c.after suite .connect).outbox.waiting generation = [] := by
    rw [hafter]
    exact (c.outbox.waiting_install generation).trans (Outbox.waiting_of_length_le (Nat.le_of_eq hg))
  have hrecord : c.record suite generation x .connect =
      Transcript.add .blank [(Packet.handShake ⟨c.config.clientId⟩).encode] [] [] := by
    rw [record, hwrote, queued, hwaiting, List.drop_nil, hblank]
    rfl
  have hsilent : (c.record suite generation x .connect).Silent [(Packet.handShake ⟨c.config.clientId⟩).encode] :=
    hrecord ▸ ⟨rfl, rfl⟩
  have hborn : (c.after suite .connect).outbox.channels.length = generation + 1 := by
    rw [hafter, ← hg]
    exact c.outbox.length_install
  refine ⟨.begun _ hsilent, ?_, ?_, ?_, fun connection h' _ => ?_, fun connection h' => ?_, fun hle => ?_⟩
  · rw [hwaiting, hrecord]
    rfl
  · rw [hwaiting]
    exact Packet.allSealed_nil
  · rw [hafter]
    exact h.pending
  · rw [hafter] at h'
    cases h'
    exact .unencrypted _ _ hsilent
  · rw [hborn, ← hg]
    rw [hafter] at h'
    cases h'
    exact Nat.lt_succ_self _
  · rw [hborn] at hle
    exact absurd hle (Nat.not_succ_le_self generation)

/-! ## Runs -/

theorem Transcribes.idle (h : c.Transcribes suite generation x) (hidle : c.Idle (c.moved suite m))
    (hsaid : c.said suite generation m = []) :
    (c.after suite m).Transcribes suite generation (c.record suite generation x m) := by
  have hwrote : c.wrote suite generation m = [] := by
    rw [wrote]
    exact ite_eq_right_iff.2 fun _ => hidle.written
  exact h.stay (c.moved_client m ▸ hidle.stays generation) hwrote hsaid

theorem Transcribes.connect (h : c.Transcribes suite generation x) :
    (c.after suite .connect).Transcribes suite generation (c.record suite generation x .connect) := by
  by_cases hstopped : c.stopped = true
  · refine h.idle ?_ rfl
    have hmoved : c.moved suite .connect = c.connect suite := rfl
    rw [hmoved, connect_eq, if_pos hstopped]
    exact idle_stay rfl rfl
  · by_cases hg : c.outbox.channels.length = generation
    · exact transcribes_born h (Bool.eq_false_iff.2 hstopped) hg
    · have hafter : c.after suite .connect = (c.connect suite).client := rfl
      rw [connect_eq, if_neg hstopped] at hafter
      refine h.stay ?_ (if_neg fun heq => hg (Option.some.inj heq)) rfl
      rw [hafter]
      refine ⟨fun connection h' hg' => ?_, fun _ connection h' => ?_, c.outbox.feeds_install generation⟩
      · cases h'
        exact absurd hg' hg
      · cases h'
        exact Nat.lt_of_lt_of_eq (Nat.lt_succ_self _) c.outbox.length_install.symm

theorem Transcribes.after (h : c.Transcribes suite generation x)
    (hsealed : ∀ p awaited, m = .post p awaited → p.kind.travelsInClear = false) :
    (c.after suite m).Transcribes suite generation (c.record suite generation x m) := by
  cases m with
  | post p awaited => exact h.idle (idle_post c (hsealed p awaited rfl) awaited) rfl
  | connect => exact h.connect
  | refuse =>
    have hrefused : c.Idle (.stay c.refuse) := idle_stay rfl rfl
    exact h.idle hrefused rfl
  | receive frame =>
    by_cases hown : ∃ connection, c.connection? = some connection ∧ connection.generation = generation
    · obtain ⟨connection, hc, rfl⟩ := hown
      exact transcribes_receive h hc frame
    · have hlink : ∀ connection, c.connection? = some connection → connection.generation ≠ generation :=
        fun connection hc hg => hown ⟨connection, hc, hg⟩
      exact h.stay (stays_receive hlink frame) (wrote_of_ne hlink rfl) (said_of_ne hlink (.receive frame))
  | forward =>
    by_cases hown : ∃ connection, c.connection? = some connection ∧ connection.generation = generation
    · obtain ⟨connection, hc, rfl⟩ := hown
      exact transcribes_forward h hc
    · have hlink : ∀ connection, c.connection? = some connection → connection.generation ≠ generation :=
        fun connection hc hg => hown ⟨connection, hc, hg⟩
      exact h.stay (stays_forward hlink) (wrote_of_ne hlink rfl) (said_of_ne hlink .forward)
  | lose => exact h.idle c.idle_lose rfl
  | expire => exact h.idle c.idle_expire rfl
  | stop => exact h.idle c.idle_stop rfl
  | tick => exact h.idle c.idle_tick rfl

/-- Whatever else a kiosk does, the transcript of each of its links can be told
of it. -/
theorem transcribes_run (suite : CipherSuite) (config : ClientConfig) (directory : Directory) (draws : Draws)
    {ms : List Move} (hsealed : ∀ p awaited, .post p awaited ∈ ms → p.kind.travelsInClear = false)
    (generation : Nat) :
    let c := start config directory draws
    (c.run suite ms).Transcribes suite generation (c.transcript suite generation ms) := by
  intro c
  induction ms using List.reverseRecOn with
  | nil =>
    refine ⟨.nothing ⟨rfl, rfl⟩, rfl, Packet.allSealed_nil, Packet.allSealed_nil, fun connection h _ => ?_,
      fun connection h => ?_, fun _ => rfl⟩
    · exact (Option.some_ne_none connection h.symm).elim
    · exact (Option.some_ne_none connection h.symm).elim
  | append_singleton ms m ih =>
    have hrun : c.run suite (ms ++ [m]) = (c.run suite ms).after suite m := run_append c ms [m]
    rw [hrun, transcript_snoc]
    refine Transcribes.after (ih fun p awaited hm => ?_) fun p awaited hm => ?_
    · exact hsealed p awaited (List.mem_append_left _ hm)
    · exact hsealed p awaited (hm ▸ List.mem_append_right _ (List.mem_singleton.2 rfl))

end Client

end OrderDesk
