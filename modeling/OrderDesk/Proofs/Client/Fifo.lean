import Mathlib.Data.List.Basic
import Mathlib.Logic.Function.Iterate
import OrderDesk.Client.Node

/-!
# One line of packets

Whatever the threads of a kiosk do with the outbox, the packets that the links
took, link after link, followed by those that wait, are the packets that were
sent, in their order. A move is what one thread does while it holds the outbox;
the reader of a link can take packets or go away at any time, also while
waiting packets are handed over.
-/

namespace OrderDesk

namespace Outbox

/-! ## Handing over -/

def loseReader (o : Outbox) : Outbox :=
  match o.live? with
  | some l => o.close l.generation
  | none => o

/-- Hands over what waits. The reader of the live link goes away meanwhile if
`cut` says after how many packets. -/
def drainCut (o : Outbox) (cut : Option Nat) : Outbox :=
  match cut with
  | none => o.drain
  | some n => (handOver^[n] o).loseReader.drain

def Flushed (o : Outbox) : Prop := o.live?.isSome → o.pending = []

theorem drain_eq_iterate (o : Outbox) : o.drain = handOver^[o.pending.length] o := List.foldl_const handOver o o.pending

theorem handOver_of_not_live {o : Outbox} (h : o.live? = none) : o.handOver = o := by
  unfold handOver
  split
  · next h' => rw [h] at h'; cases h'
  · rfl

theorem pending_handOver (o : Outbox) : o.handOver.live? = none ∨ o.handOver.pending = o.pending.tail := by
  unfold handOver
  split
  · split
    · right; simp [*]
    · left; rfl
  · next hno =>
    cases hp : o.pending with
    | nil => right; rfl
    | cons p rest =>
      cases hl : o.live? with
      | none => left; rfl
      | some l => exact absurd hl (hno p rest l hp)

theorem flushed_iterate (n : Nat) (o : Outbox) (h : o.pending.length ≤ n) : (handOver^[n] o).Flushed := by
  induction n generalizing o with
  | zero => intro _; exact List.length_eq_zero_iff.1 (Nat.le_zero.1 h)
  | succ n ih =>
    rw [Function.iterate_succ_apply]
    rcases o.pending_handOver with hdead | htail
    · intro hlive
      have hfix : handOver^[n] o.handOver = o.handOver := Function.iterate_fixed (handOver_of_not_live hdead) n
      rw [hfix, hdead] at hlive
      cases hlive
    · apply ih
      rw [htail, List.length_tail]
      omega

theorem flushed_drain (o : Outbox) : o.drain.Flushed := by
  rw [drain_eq_iterate]
  exact flushed_iterate _ o (Nat.le_refl _)

theorem flushed_drainCut (o : Outbox) (cut : Option Nat) : (o.drainCut cut).Flushed := by
  cases cut <;> exact flushed_drain _

theorem flushed_send {o : Outbox} (h : o.Flushed) (p : Packet) (awaited : Bool) : (o.send p awaited).1.Flushed := by
  unfold send
  split
  · next l hp hl =>
    split
    · intro _; exact hp
    · intro hlive; cases hlive
  · next hno =>
    intro hlive
    have hlive' : o.live?.isSome := hlive
    obtain ⟨l, hl⟩ := Option.isSome_iff_exists.1 hlive'
    exact absurd hl (hno l (h hlive'))

theorem flushed_take {o o' : Outbox} (h : o.Flushed) {generation : Nat} {out : Outgoing}
    (htake : o.take? generation = some (out, o')) : o'.Flushed := by
  unfold take? at htake
  cases hbox : o.channels[generation]? with
  | none => simp [hbox] at htake
  | some box =>
    cases hm : box.take? with
    | none => simp [hbox, hm] at htake
    | some taken =>
      simp [hbox, hm] at htake
      obtain ⟨-, rfl⟩ := htake
      exact h

/-! ## What the links took -/

/-- The packets that each link took, those that its reader has taken out of the
channel before those that are still in it. -/
def received (taken : Nat → List Packet) (channels : List (Mailbox Outgoing)) : List (List Packet) :=
  channels.mapIdx fun g box => taken g ++ box.messages.map (·.packet)

variable {taken : Nat → List Packet} {o : Outbox}

theorem received_modify {channels : List (Mailbox Outgoing)} {generation : Nat}
    {f : Mailbox Outgoing → Mailbox Outgoing} {taken' : Nat → List Packet}
    (hother : ∀ g, g ≠ generation → taken' g = taken g)
    (hsame : ∀ box, channels[generation]? = some box →
      taken' generation ++ (f box).messages.map (·.packet) = taken generation ++ box.messages.map (·.packet)) :
    received taken' (channels.modify generation f) = received taken channels := by
  apply List.ext_getElem?
  intro g
  simp only [received, List.getElem?_mapIdx, List.getElem?_modify]
  by_cases hg : generation = g
  · subst hg
    cases hbox : channels[generation]? with
    | none => rfl
    | some box => simp [hsame box hbox]
  · cases channels[g]? with
    | none => rfl
    | some box => simp [hg, hother g (Ne.symm hg)]

theorem received_put (taken : Nat → List Packet) {channels : List (Mailbox Outgoing)} {generation : Nat}
    (hlast : generation + 1 = channels.length) (hopen : (channels[generation]?).any fun box => !box.isClosed)
    (out : Outgoing) :
    (received taken (channels.modify generation (·.put out))).flatten =
      (received taken channels).flatten ++ [out.packet] := by
  obtain ⟨boxes, box, rfl⟩ : ∃ boxes box, channels = boxes ++ [box] := by
    refine ⟨channels.dropLast, channels.getLast (by intro h; simp [h] at hlast), ?_⟩
    exact (List.dropLast_append_getLast _).symm
  obtain rfl : generation = boxes.length := by simpa using hlast
  have hbox : box.isClosed = false := by simpa using hopen
  have hmodify : (boxes ++ [box]).modify boxes.length (·.put out) = boxes ++ [box.put out] := by
    simp [List.modify_eq_set_getElem?]
  rw [hmodify]
  simp [received, List.mapIdx_append, Mailbox.messages_put_of_open hbox]

theorem received_install {channels : List (Mailbox Outgoing)} (h : taken channels.length = []) :
    (received taken (channels ++ [.empty])).flatten = (received taken channels).flatten := by
  simp [received, List.mapIdx_append, Mailbox.empty, h]

/-! ## What every change keeps -/

/-- The links took `past` and maybe more, and what they took, with what waits
behind it, is what was sent. -/
structure Orderly (taken : Nat → List Packet) (past sent : List Packet) (o : Outbox) : Prop where
  newest : ∀ l ∈ o.link?, l.generation + 1 = o.channels.length
  untouched : ∀ g, o.channels.length ≤ g → taken g = []
  grows : past <+: (received taken o.channels).flatten
  line : (received taken o.channels).flatten ++ o.pending = sent

variable {past sent : List Packet}

theorem Orderly.newest_of_live (h : Orderly taken past sent o) {l : Link} (hl : o.live? = some l) :
    l.generation + 1 = o.channels.length := by
  apply h.newest l
  unfold live? at hl
  exact (Option.filter_eq_some_iff.1 hl).1

theorem Orderly.unlink (h : Orderly taken past sent o) : Orderly taken past sent o.unlink where
  newest l hl := by cases hl
  untouched := h.untouched
  grows := h.grows
  line := h.line

theorem Orderly.close (h : Orderly taken past sent o) (generation : Nat) :
    Orderly taken past sent (o.close generation) := by
  have hsame : received taken (o.channels.modify generation (·.close)) = received taken o.channels :=
    received_modify (fun _ _ => rfl) fun _ _ => rfl
  constructor
  · simpa [Outbox.close, mapChannel] using h.newest
  · simpa [Outbox.close, mapChannel] using h.untouched
  · simpa [Outbox.close, mapChannel, hsame] using h.grows
  · simpa [Outbox.close, mapChannel, hsame] using h.line

theorem Orderly.waiting (h : Orderly taken past sent o) (ps : List Packet) :
    Orderly taken past ((received taken o.channels).flatten ++ ps) { o with pending := ps } :=
  ⟨h.newest, h.untouched, h.grows, rfl⟩

theorem Orderly.put (h : Orderly taken past sent o) {l : Link} (hl : o.live? = some l) (hopen : o.isOpen l.generation)
    (out : Outgoing) :
    Orderly taken past ((received taken o.channels).flatten ++ out.packet :: o.pending)
      (o.mapChannel l.generation (·.put out)) := by
  have hput := received_put taken (h.newest_of_live hl) hopen out
  constructor
  · simpa [mapChannel] using h.newest
  · simpa [mapChannel] using h.untouched
  · simpa [mapChannel, hput] using h.grows.trans (List.prefix_append _ _)
  · simp [mapChannel, hput]

theorem Orderly.handOver (h : Orderly taken past sent o) : Orderly taken past sent o.handOver := by
  unfold Outbox.handOver
  split
  · next p rest l hp hl =>
    split
    · next hopen =>
      have hline := h.line
      rw [hp] at hline
      rw [← hline]
      exact (h.waiting rest).put hl hopen ⟨p, false⟩
    · exact h.unlink
  · exact h

theorem Orderly.iterate (h : Orderly taken past sent o) (n : Nat) :
    Orderly taken past sent (Outbox.handOver^[n] o) := by
  induction n generalizing o with
  | zero => exact h
  | succ n ih => exact ih h.handOver

theorem Orderly.drain (h : Orderly taken past sent o) : Orderly taken past sent o.drain := by
  rw [drain_eq_iterate]
  exact h.iterate _

theorem Orderly.drainCut (h : Orderly taken past sent o) (cut : Option Nat) :
    Orderly taken past sent (o.drainCut cut) := by
  cases cut with
  | none => exact h.drain
  | some n =>
    apply Orderly.drain
    unfold loseReader
    split
    · exact (h.iterate n).close _
    · exact h.iterate n

theorem Orderly.encrypt (h : Orderly taken past sent o) : Orderly taken past sent o.encrypt where
  newest l hl := by
    obtain ⟨l', hl', rfl⟩ := Option.map_eq_some_iff.1 hl
    exact h.newest l' hl'
  untouched := h.untouched
  grows := h.grows
  line := h.line

theorem Orderly.teardown (h : Orderly taken past sent o) (generation : Nat) :
    Orderly taken past sent (o.teardown generation) := by
  unfold Outbox.teardown
  split
  · exact h.unlink
  · exact h

theorem Orderly.install (h : Orderly taken past sent o) : Orderly taken past sent o.install := by
  have hsame := received_install (h.untouched o.channels.length (Nat.le_refl _))
  constructor
  · intro l hl
    cases hl
    simp [Outbox.install]
  · intro g hg
    apply h.untouched g
    simp [Outbox.install] at hg
    omega
  · simpa [Outbox.install, hsame] using h.grows
  · simpa [Outbox.install, hsame] using h.line

theorem Orderly.enqueue (h : Orderly taken past sent o) (p : Packet) :
    Orderly taken past (sent ++ [p]) (o.enqueue p) where
  newest := h.newest
  untouched := h.untouched
  grows := h.grows
  line := by rw [← h.line]; simp [Outbox.enqueue]

theorem Orderly.send (h : Orderly taken past sent o) (p : Packet) (awaited : Bool) :
    Orderly taken past (sent ++ [p]) (o.send p awaited).1 := by
  unfold Outbox.send
  split
  · next l hp hl =>
    split
    · next hopen =>
      have hline := h.line
      have hput := h.put hl hopen ⟨p, awaited⟩
      rw [hp, List.append_nil] at hline
      rw [hp, hline] at hput
      exact hput
    · exact h.unlink.enqueue p
  · exact h.enqueue p

theorem Orderly.take (h : Orderly taken past sent o) {generation : Nat} {out : Outgoing} {o' : Outbox}
    (htake : o.take? generation = some (out, o')) :
    Orderly (Function.update taken generation (taken generation ++ [out.packet])) past sent o' := by
  unfold Outbox.take? at htake
  cases hbox : o.channels[generation]? with
  | none => simp [hbox] at htake
  | some box =>
    cases hm : box.messages with
    | nil => simp [hbox, Mailbox.take?, hm] at htake
    | cons message rest =>
      simp [hbox, Mailbox.take?, hm] at htake
      obtain ⟨rfl, rfl⟩ := htake
      have hlt : generation < o.channels.length := (List.getElem?_eq_some_iff.1 hbox).1
      have hsame : received (Function.update taken generation (taken generation ++ [message.packet]))
          (o.channels.modify generation fun _ => { box with messages := rest }) = received taken o.channels := by
        apply received_modify
        · intro g hg
          exact Function.update_of_ne hg _ _
        · intro box' hbox'
          obtain rfl : box = box' := Option.some.inj (hbox.symm.trans hbox')
          simp [hm]
      constructor
      · simpa [mapChannel] using h.newest
      · intro g hg
        have hg' : o.channels.length ≤ g := by simpa [mapChannel] using hg
        rw [Function.update_of_ne (by omega)]
        exact h.untouched g hg'
      · simpa [mapChannel, hsame] using h.grows
      · simpa [mapChannel, hsame] using h.line

/-! ## Moves -/

/-- What one thread does while it holds the outbox, or the reader of a link at
any time. A handshake that is done makes two moves, for the outbox is let go
between them: what waits goes out, and later the request for everything. -/
inductive Move
  | send (p : Packet) (awaited : Bool)
  | drain (cut : Option Nat)
  | install
  | encrypted (generation : Nat) (cut : Option Nat)
  | request
  | teardown (generation : Nat)
  | shutdown
  | read (generation : Nat)
  | vanish (generation : Nat)

/-- An outbox with what its readers took, what was sent, and the number of
requests for everything that are due. -/
structure History where
  outbox : Outbox
  taken : Nat → List Packet
  sent : List Packet
  due : Nat

namespace History

def start : History := ⟨.empty, fun _ => [], [], 0⟩

/-- The packets that the links took, link after link. -/
def accepted (h : History) : List Packet := (received h.taken h.outbox.channels).flatten

def send (h : History) (p : Packet) (awaited : Bool) : History :=
  { h with outbox := (h.outbox.send p awaited).1, sent := h.sent ++ [p] }

def step (h : History) : Move → History
  | .send p awaited => h.send p awaited
  | .drain cut => { h with outbox := h.outbox.drainCut cut }
  | .install => { h with outbox := h.outbox.install }
  | .encrypted generation cut =>
    if h.outbox.isCurrent generation then { h with outbox := h.outbox.encrypt.drainCut cut, due := h.due + 1 } else h
  | .request =>
    match h.due with
    | 0 => h
    | due + 1 => { h with due }.send Client.everything false
  | .teardown generation => { h with outbox := h.outbox.teardown generation }
  | .shutdown => { h with outbox := h.outbox.unlink }
  | .read generation =>
    match h.outbox.take? generation with
    | none => h
    | some (out, outbox) =>
      { h with outbox, taken := Function.update h.taken generation (h.taken generation ++ [out.packet]) }
  | .vanish generation => { h with outbox := h.outbox.close generation }

def run (h : History) (ms : List Move) : History := ms.foldl step h

theorem orderly_step {h : History} {past : List Packet} (ho : Orderly h.taken past h.sent h.outbox) (m : Move) :
    Orderly (h.step m).taken past (h.step m).sent (h.step m).outbox := by
  cases m with
  | send p awaited => exact ho.send p awaited
  | drain cut => exact ho.drainCut cut
  | install => exact ho.install
  | encrypted generation cut =>
    simp only [step]
    split
    · exact ho.encrypt.drainCut cut
    · exact ho
  | request =>
    simp only [step]
    split
    · exact ho
    · exact ho.send _ _
  | teardown generation => exact ho.teardown generation
  | shutdown => exact ho.unlink
  | read generation =>
    simp only [step]
    split
    · exact ho
    · next htake => exact ho.take htake
  | vanish generation => exact ho.close generation

theorem flushed_step {h : History} (hf : h.outbox.Flushed) (m : Move) : (h.step m).outbox.Flushed := by
  cases m with
  | send p awaited => exact flushed_send hf p awaited
  | drain cut => exact flushed_drainCut _ cut
  | install => intro hlive; cases hlive
  | encrypted generation cut =>
    simp only [step]
    split
    · exact flushed_drainCut _ cut
    · exact hf
  | request =>
    simp only [step]
    split
    · exact hf
    · exact flushed_send hf _ _
  | teardown generation =>
    simp only [step, Outbox.teardown]
    split
    · intro hlive; cases hlive
    · exact hf
  | shutdown => intro hlive; cases hlive
  | read generation =>
    simp only [step]
    split
    · exact hf
    · next htake => exact flushed_take hf htake
  | vanish generation => exact hf

theorem orderly_run (ms : List Move) :
    let h := start.run ms
    Orderly h.taken [] h.sent h.outbox ∧ h.outbox.Flushed := by
  suffices hrun : ∀ h : History, Orderly h.taken [] h.sent h.outbox → h.outbox.Flushed →
      Orderly (h.run ms).taken [] (h.run ms).sent (h.run ms).outbox ∧ (h.run ms).outbox.Flushed by
    apply hrun start
    · exact ⟨nofun, fun _ _ => rfl, List.prefix_refl _, rfl⟩
    · intro _; rfl
  induction ms with
  | nil => intro h ho hf; exact ⟨ho, hf⟩
  | cons m ms ih => intro h ho hf; exact ih (h.step m) (orderly_step ho m) (flushed_step hf m)

theorem accepted_step {h : History} (ho : Orderly h.taken [] h.sent h.outbox) (m : Move) :
    h.accepted <+: (h.step m).accepted :=
  (orderly_step ⟨ho.newest, ho.untouched, List.prefix_refl _, ho.line⟩ m).grows

theorem direct_iff {h : History} (ho : Orderly h.taken [] h.sent h.outbox) (p : Packet) (awaited : Bool) :
    (h.outbox.send p awaited).2 = .direct ↔ (h.step (.send p awaited)).accepted = h.accepted ++ [p] := by
  have hstep : (h.step (.send p awaited)).accepted =
      (received h.taken (h.outbox.send p awaited).1.channels).flatten := rfl
  rw [hstep]
  unfold Outbox.send
  split
  · next l hp hl =>
    split
    · next hopen =>
      have hput := received_put h.taken (ho.newest_of_live hl) hopen ⟨p, awaited⟩
      simpa [mapChannel, accepted] using hput
    · simp [enqueue, Outbox.unlink, accepted]
  · simp [enqueue, accepted]

theorem step_stale {h : History} {l : Link} (hl : l ∈ h.outbox.link?) {generation : Nat}
    (hg : generation ≠ l.generation) (cut : Option Nat) : h.step (.encrypted generation cut) = h ∧ h.step (.teardown generation) = h := by
  have hstale : h.outbox.isCurrent generation = false := by
    simp [isCurrent, Option.mem_def.1 hl, Ne.symm hg]
  simp [step, Outbox.teardown, hstale]

/-- **One line.** After any moves, what the links took followed by what waits
is what was sent, in order, and what the links took only ever grows at its end.
A live link leaves nothing to wait. A sender is told that its packet went to
the link exactly when a link took it. A generation that is not the link's
changes nothing. -/
theorem one_line (ms : List Move) :
    let h := start.run ms
    h.accepted ++ h.outbox.pending = h.sent ∧ (∀ m, h.accepted <+: (h.step m).accepted) ∧
      (h.outbox.live?.isSome → h.outbox.pending = []) ∧
      (∀ p awaited, (h.outbox.send p awaited).2 = .direct ↔
        (h.step (.send p awaited)).accepted = h.accepted ++ [p]) ∧
      ∀ l ∈ h.outbox.link?, ∀ generation, generation ≠ l.generation → ∀ cut,
        h.step (.encrypted generation cut) = h ∧ h.step (.teardown generation) = h := by
  intro h
  obtain ⟨ho, hf⟩ := orderly_run ms
  exact ⟨ho.line, accepted_step ho, hf, direct_iff ho, fun l hl generation hg => step_stale hl hg⟩

def menusPlease : Packet := .requestData ⟨RegistryId.menus⟩

def ordersPlease : Packet := .requestData ⟨RegistryId.orders⟩

/-- The reader of the first link goes away after one of two packets. -/
def interrupted : List Move :=
  [.send menusPlease true, .install, .send ordersPlease true, .encrypted 0 (some 1), .install, .teardown 0,
    .encrypted 1 none, .request, .read 0, .read 1]

theorem one_line_interrupted :
    let h := start.run interrupted
    h.accepted ++ h.outbox.pending = [menusPlease, ordersPlease, Client.everything] ∧ h.outbox.pending = [] ∧
      h.step (.teardown 0) = h := by
  obtain ⟨hline, -, hflushed, -, hstale⟩ := one_line interrupted
  exact ⟨hline, hflushed rfl, (hstale ⟨1, true⟩ rfl 0 (by decide) none).2⟩

end History

/-! ## A running kiosk -/

theorem outbox_dial (c : Client) : c.dial.outbox = c.outbox := by
  unfold Client.dial
  split <;> rfl

theorem outbox_post (c : Client) (p : Packet) (awaited : Bool) :
    (c.post p awaited).1.outbox = (c.outbox.send p awaited).1 := by
  unfold Client.post
  split
  · next h => rw [h]
  · next h => rw [outbox_dial, h]

/-- When its handshake is done a kiosk makes two of the moves, with nothing
between them. -/
theorem outbox_welcome (c : Client) (generation : Nat) (taken : Nat → List Packet) (sent : List Packet) :
    (c.welcome generation).outbox =
      ((⟨c.outbox, taken, sent, 0⟩ : History).run [.encrypted generation none, .request]).outbox := by
  unfold Client.welcome
  by_cases hg : c.outbox.isCurrent generation
  · simp only [hg, if_true, outbox_post, History.run, List.foldl_cons, List.foldl_nil, History.step]
    simp [openLink, hg, History.send, Client.publish, drainCut]
  · simp [hg, History.run, History.step]

end Outbox

end OrderDesk
