import OrderDesk.Client.Outbox
import OrderDesk.Proofs.Session.Stream

/-!
# What becomes of a channel

A channel is a queue of its own. All that the outbox does to it is to put
packets at its end; the link that reads it takes them from the front.
-/

namespace OrderDesk

namespace Outbox

/-- The packets that wait in the channel of a generation. -/
def waiting (o : Outbox) (generation : Nat) : List Packet :=
  ((o.channels[generation]?).map fun box => box.messages.map (·.packet)).getD []

/-- What waits in a channel stays, and more may have come after it. -/
structure Feeds (o o' : Outbox) (generation : Nat) : Prop where
  length_le : o.channels.length ≤ o'.channels.length
  pending : Packet.AllSealed o.pending → Packet.AllSealed o'.pending
  waiting : Packet.AllSealed o.pending →
    ∃ added, Packet.AllSealed added ∧ o'.waiting generation = o.waiting generation ++ added

variable {o o' o'' : Outbox} {generation : Nat}

theorem waiting_of_length_le (h : o.channels.length ≤ generation) : o.waiting generation = [] := by
  rw [waiting, List.getElem?_eq_none h]
  rfl

theorem feeds_of_channels (o o' : Outbox) (hchannels : o'.channels = o.channels)
    (hpending : Packet.AllSealed o.pending → Packet.AllSealed o'.pending) (generation : Nat) :
    o.Feeds o' generation := by
  refine ⟨hchannels ▸ Nat.le_refl _, hpending, fun _ => ⟨[], Packet.allSealed_nil, ?_⟩⟩
  rw [List.append_nil, waiting, hchannels]
  rfl

theorem Feeds.refl (o : Outbox) (generation : Nat) : o.Feeds o generation := feeds_of_channels o o rfl id generation

theorem Feeds.trans (h : o.Feeds o' generation) (h' : o'.Feeds o'' generation) : o.Feeds o'' generation := by
  refine ⟨Nat.le_trans h.length_le h'.length_le, h'.pending ∘ h.pending, fun hp => ?_⟩
  obtain ⟨added, hadded, hwaiting⟩ := h.waiting hp
  obtain ⟨added', hadded', hwaiting'⟩ := h'.waiting (h.pending hp)
  refine ⟨added ++ added', hadded.append hadded', ?_⟩
  rw [hwaiting', hwaiting, List.append_assoc]

theorem waiting_mapChannel (o : Outbox) (g : Nat) (f : Mailbox Outgoing → Mailbox Outgoing) (generation : Nat) :
    (o.mapChannel g f).waiting generation =
      ((o.channels[generation]?).map fun box =>
        (if g = generation then f box else box).messages.map (·.packet)).getD [] := by
  rw [waiting, mapChannel, List.getElem?_modify]
  cases o.channels[generation]? with
  | none => rfl
  | some box => rfl

theorem length_mapChannel (o : Outbox) (g : Nat) (f : Mailbox Outgoing → Mailbox Outgoing) :
    (o.mapChannel g f).channels.length = o.channels.length := by
  simp [mapChannel]

theorem waiting_mapChannel_of_ne {g : Nat} (hne : g ≠ generation) (f : Mailbox Outgoing → Mailbox Outgoing) :
    (o.mapChannel g f).waiting generation = o.waiting generation := by
  simp only [waiting_mapChannel, if_neg hne]
  rfl

/-- A packet goes to the end of a channel, or nowhere. -/
theorem exists_waiting_put (o : Outbox) (g : Nat) {p : Packet} (hp : p.kind.travelsInClear = false) (awaited : Bool)
    (generation : Nat) : ∃ added, Packet.AllSealed added ∧
      (o.mapChannel g (·.put ⟨p, awaited⟩)).waiting generation = o.waiting generation ++ added := by
  rw [waiting_mapChannel, waiting]
  cases o.channels[generation]? with
  | none => exact ⟨[], Packet.allSealed_nil, rfl⟩
  | some box =>
    simp only [Option.map_some, Option.getD_some]
    by_cases hput : g = generation ∧ box.isClosed = false
    · refine ⟨[p], Packet.allSealed_singleton hp, ?_⟩
      rw [if_pos hput.1, Mailbox.messages_put_of_open hput.2, List.map_append]
      rfl
    · refine ⟨[], Packet.allSealed_nil, ?_⟩
      rw [List.append_nil]
      split
      · next hg =>
        have hclosed : box.isClosed = true := Bool.not_eq_false _ ▸ fun hopen => hput ⟨hg, hopen⟩
        rw [Mailbox.put_of_closed hclosed]
      · rfl

theorem feeds_unlink (o : Outbox) (generation : Nat) : o.Feeds o.unlink generation :=
  feeds_of_channels o o.unlink rfl id generation

theorem feeds_enqueue (o : Outbox) {p : Packet} (hp : p.kind.travelsInClear = false) (generation : Nat) :
    o.Feeds (o.enqueue p) generation :=
  feeds_of_channels o (o.enqueue p) rfl (fun hpending => hpending.append (Packet.allSealed_singleton hp)) generation

theorem feeds_send (o : Outbox) {p : Packet} (hp : p.kind.travelsInClear = false) (awaited : Bool) (generation : Nat) :
    o.Feeds (o.send p awaited).1 generation := by
  unfold send
  split
  · next l _ _ =>
    split
    · refine ⟨Nat.le_of_eq (o.length_mapChannel _ _).symm, id, fun _ => ?_⟩
      exact o.exists_waiting_put l.generation hp awaited generation
    · exact (o.feeds_unlink generation).trans (o.unlink.feeds_enqueue hp generation)
  · exact o.feeds_enqueue hp generation

theorem feeds_handOver (o : Outbox) (generation : Nat) : o.Feeds o.handOver generation := by
  unfold handOver
  split
  · next p rest l hpending _ =>
    split
    · refine ⟨Nat.le_of_eq (o.length_mapChannel _ _).symm, fun h => ?_, fun h => ?_⟩
      · exact fun q hq => h q (hpending ▸ List.mem_cons_of_mem p hq)
      · have hp : p.kind.travelsInClear = false := h p (hpending ▸ List.mem_cons_self)
        exact o.exists_waiting_put l.generation hp false generation
    · exact o.feeds_unlink generation
  · exact .refl o generation

theorem feeds_drain (o : Outbox) (generation : Nat) : o.Feeds o.drain generation := by
  unfold drain
  generalize o.pending = ps
  induction ps generalizing o with
  | nil => exact .refl o generation
  | cons p ps ih => exact (o.feeds_handOver generation).trans (ih o.handOver)

theorem length_install (o : Outbox) : o.install.channels.length = o.channels.length + 1 := by simp [install]

/-- The channel of a new link is empty, as if it were not there. -/
theorem waiting_install (o : Outbox) (generation : Nat) : o.install.waiting generation = o.waiting generation := by
  rw [waiting, waiting, install]
  dsimp only
  by_cases hg : generation < o.channels.length
  · rw [List.getElem?_append_left hg]
  · rw [List.getElem?_eq_none (Nat.le_of_not_lt hg), List.getElem?_append_right (Nat.le_of_not_lt hg),
      List.getElem?_singleton]
    split <;> rfl

theorem feeds_install (o : Outbox) (generation : Nat) : o.Feeds o.install generation := by
  refine ⟨o.length_install ▸ Nat.le_succ _, id, fun _ => ⟨[], Packet.allSealed_nil, ?_⟩⟩
  rw [List.append_nil]
  exact o.waiting_install generation

theorem feeds_openLink (o : Outbox) (g generation : Nat) : o.Feeds (o.openLink g) generation := by
  unfold openLink
  split
  · have hencrypted : o.Feeds o.encrypt generation := feeds_of_channels o o.encrypt rfl id generation
    exact hencrypted.trans (o.encrypt.feeds_drain generation)
  · exact .refl o generation

/-- The end of a link takes nothing from its channel, and puts nothing there. -/
theorem waiting_ended (o : Outbox) (g generation : Nat) :
    ((o.teardown g).close g).waiting generation = o.waiting generation := by
  have hchannels : (o.teardown g).channels = o.channels := by
    unfold teardown
    split <;> rfl
  rw [close, waiting_mapChannel, waiting, hchannels]
  cases o.channels[generation]? with
  | none => rfl
  | some box =>
    simp only [Option.map_some, Option.getD_some]
    split <;> rfl

theorem pending_ended (o : Outbox) (g : Nat) : ((o.teardown g).close g).pending = o.pending := by
  have hpending : (o.teardown g).pending = o.pending := by
    unfold teardown
    split <;> rfl
  exact hpending

theorem length_ended (o : Outbox) (g : Nat) : ((o.teardown g).close g).channels.length = o.channels.length := by
  have hchannels : (o.teardown g).channels = o.channels := by
    unfold teardown
    split <;> rfl
  exact (length_mapChannel _ _ _).trans (congrArg List.length hchannels)

theorem feeds_of_waiting (o o' : Outbox) (hlength : o'.channels.length = o.channels.length)
    (hpending : o'.pending = o.pending) (hwaiting : o'.waiting generation = o.waiting generation) :
    o.Feeds o' generation :=
  ⟨Nat.le_of_eq hlength.symm, fun h => hpending.symm ▸ h,
    fun _ => ⟨[], Packet.allSealed_nil, hwaiting.trans (List.append_nil _).symm⟩⟩

theorem feeds_ended (o : Outbox) (g generation : Nat) : o.Feeds ((o.teardown g).close g) generation :=
  feeds_of_waiting o _ (o.length_ended g) (o.pending_ended g) (o.waiting_ended g generation)

/-- A channel has lost its first packet, and nothing else is different. -/
structure Takes (o o' : Outbox) (generation : Nat) (p : Packet) : Prop where
  head : o.waiting generation = p :: o'.waiting generation
  others : ∀ g, g ≠ generation → o'.waiting g = o.waiting g
  pending : o'.pending = o.pending
  length_eq : o'.channels.length = o.channels.length

theorem takes_of_take? {out : Outgoing} (h : o.take? generation = some (out, o')) :
    o.Takes o' generation out.packet := by
  unfold take? at h
  obtain ⟨box, hbox, h⟩ := Option.bind_eq_some_iff.1 h
  obtain ⟨⟨out', rest⟩, htake, h⟩ := Option.bind_eq_some_iff.1 h
  cases h
  refine ⟨?_, fun g hg => waiting_mapChannel_of_ne hg.symm _, rfl, o.length_mapChannel _ _⟩
  unfold Mailbox.take? at htake
  split at htake
  · cases htake
  · next message messages hmessages =>
    cases htake
    rw [waiting_mapChannel, waiting, hbox]
    simp [hmessages]

theorem Takes.ended {p : Packet} (h : o.Takes o' generation p) (g : Nat) :
    o.Takes ((o'.teardown g).close g) generation p := by
  refine ⟨?_, fun g' hg' => ?_, (o'.pending_ended g).trans h.pending, (o'.length_ended g).trans h.length_eq⟩
  · rw [waiting_ended]
    exact h.head
  · rw [waiting_ended]
    exact h.others g' hg'

theorem Takes.feeds {p : Packet} (h : o.Takes o' generation p) {g : Nat} (hg : g ≠ generation) : o.Feeds o' g :=
  feeds_of_waiting o o' h.length_eq h.pending (h.others g hg)

theorem waiting_of_take?_eq_none (h : o.take? generation = none) : o.waiting generation = [] := by
  unfold take? at h
  rw [waiting]
  cases hbox : o.channels[generation]? with
  | none => rfl
  | some box =>
    rw [hbox] at h
    cases hmessages : box.messages with
    | nil => simp [hmessages]
    | cons message messages => simp [Mailbox.take?, hmessages] at h

end Outbox

end OrderDesk
