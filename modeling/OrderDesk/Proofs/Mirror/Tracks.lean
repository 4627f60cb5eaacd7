import Mathlib.Data.List.Basic
import OrderDesk.ConnectionId
import OrderDesk.Packet.Basic

/-!
# Orders on their way

What is on its way between the server and one kiosk, taken apart by the numbers
of the orders. Of one order it says what the kiosk sent and received so far, and
where that stands to what the server stored of it and told others of.
-/

namespace OrderDesk

/-- What a kiosk has of an order. -/
inductive Entry
  | sent (o : Order)
  | received (o : Order)
  deriving DecidableEq

namespace Entry

def order : Entry → Order
  | sent o | received o => o

def sent? : Entry → Option Order
  | sent o => some o
  | received _ => none

def received? : Entry → Option Order
  | sent _ => none
  | received o => some o

@[simp] theorem order_sent (o : Order) : (sent o).order = o := rfl

@[simp] theorem order_received (o : Order) : (received o).order = o := rfl

end Entry

abbrev Submission := ConnectionId × Order

def submissionsOf (n : Int64) (hs : List Submission) : List Submission := hs.filter (·.2.orderId = n)

theorem submissionsOf_concat (n : Int64) (hs : List Submission) (c : ConnectionId) (o : Order) :
    submissionsOf n (hs ++ [(c, o)]) =
      if o.orderId = n then submissionsOf n hs ++ [(c, o)] else submissionsOf n hs := by
  by_cases hn : o.orderId = n <;> simp [submissionsOf, hn]

theorem submissionsOf_erase (n : Int64) (hs : List Submission) (c : ConnectionId) (o : Order) :
    submissionsOf n (hs.erase (c, o)) =
      if o.orderId = n then (submissionsOf n hs).erase (c, o) else submissionsOf n hs := by
  rw [submissionsOf, ← List.erase_filter, submissionsOf]
  split
  · rfl
  · next hn => exact List.erase_of_not_mem (by simp [hn])

theorem orderId_of_getLast? {n : Int64} {hs : List Submission} {c : ConnectionId} {o : Order}
    (h : (submissionsOf n hs).getLast? = some (c, o)) : o.orderId = n :=
  of_decide_eq_true (List.mem_filter.1 (List.mem_of_getLast? h)).2

/-- The versions that a kiosk submitted. -/
def ownOf (me : ConnectionId) (hs : List Submission) : List Order := (hs.filter (·.1 = me)).map (·.2)

/-- The versions that other kiosks submitted. -/
def othersOf (me : ConnectionId) (hs : List Submission) : List Order := (hs.filter (·.1 ≠ me)).map (·.2)

section
variable {me c : ConnectionId}

theorem ownOf_concat_self (me : ConnectionId) (hs : List Submission) (o : Order) :
    ownOf me (hs ++ [(me, o)]) = ownOf me hs ++ [o] := by
  simp [ownOf]

theorem ownOf_concat_other (hc : c ≠ me) (hs : List Submission) (o : Order) :
    ownOf me (hs ++ [(c, o)]) = ownOf me hs := by
  simp [ownOf, hc]

theorem othersOf_concat_self (me : ConnectionId) (hs : List Submission) (o : Order) :
    othersOf me (hs ++ [(me, o)]) = othersOf me hs := by
  simp [othersOf]

theorem othersOf_concat_other (hc : c ≠ me) (hs : List Submission) (o : Order) :
    othersOf me (hs ++ [(c, o)]) = othersOf me hs ++ [o] := by
  simp [othersOf, hc]

theorem mem_othersOf {hs : List Submission} {o : Order} : o ∈ othersOf me hs ↔ ∃ c, c ≠ me ∧ (c, o) ∈ hs := by
  simp [othersOf, and_comm]

end

/-! ## One order on one line -/

/-- Where a kiosk stands with an order: no version was stored, or the version
that was stored last is another's and the others have yet to be told of it, or a
version is on its way to the kiosk, or one has come there and only own
submissions that are not yet stored came after it, or the version is the
kiosk's own. -/
inductive Settled (me : ConnectionId) (log : List Entry) (outgoing updates : List Order) (pending : List Submission) :
    Option Submission → Prop
  | untouched : Settled me log outgoing updates pending none
  | untold (c : ConnectionId) (o : Order) (hc : c ≠ me) (h : (c, o) ∈ pending) :
    Settled me log outgoing updates pending (some (c, o))
  | coming (c : ConnectionId) (o : Order) (hc : c ≠ me) (h : updates ≠ []) :
    Settled me log outgoing updates pending (some (c, o))
  | told (c : ConnectionId) (o : Order) (hc : c ≠ me) (pre : List Entry) (o' : Order) (post : List Order)
    (hlog : log = pre ++ .received o' :: post.map .sent) (hpost : post <:+ outgoing) :
    Settled me log outgoing updates pending (some (c, o))
  | own (o : Order) (pre post : List Entry) (hlog : log = pre ++ .sent o :: post)
    (hpost : post.filterMap Entry.sent? = outgoing) : Settled me log outgoing updates pending (some (me, o))

/-- One order on the line of a kiosk: what the kiosk sent and received so far,
what is on its way in each direction, what the server stored, and which of it
the others were told of and which they have yet to be told of. -/
structure Track (me : ConnectionId) (log : List Entry) (outgoing updates : List Order)
    (stored announced pending : List Submission) : Prop where
  sent : log.filterMap Entry.sent? = ownOf me stored ++ outgoing
  received : log.filterMap Entry.received? ++ updates = othersOf me announced
  split : stored.Perm (announced ++ pending)
  settled : Settled me log outgoing updates pending stored.getLast?

section
variable {me : ConnectionId} {log : List Entry} {outgoing updates : List Order} {pending : List Submission}
  {last? : Option Submission}

theorem Settled.submit (h : Settled me log outgoing updates pending last?) (o : Order) :
    Settled me (log ++ [.sent o]) (outgoing ++ [o]) updates pending last? := by
  cases h with
  | untouched => exact .untouched
  | untold c o' hc hmem => exact .untold c o' hc hmem
  | coming c o' hc hne => exact .coming c o' hc hne
  | told c o' hc pre o'' post hlog hpost =>
    exact .told c o' hc pre o'' (post ++ [o]) (by simp [hlog]) (List.suffix_append_self_iff.2 hpost)
  | own o' pre post hlog hpost =>
    exact .own o' pre (post ++ [.sent o]) (by simp [hlog]) (by simp [hpost, Entry.sent?])

theorem Settled.hear {o : Order} (h : Settled me log outgoing (o :: updates) pending last?) :
    Settled me (log ++ [.received o]) outgoing updates pending last? := by
  cases h with
  | untouched => exact .untouched
  | untold c o' hc hmem => exact .untold c o' hc hmem
  | coming c o' hc | told c o' hc => exact .told c o' hc log o [] rfl List.nil_suffix
  | own o' pre post hlog hpost =>
    exact .own o' pre (post ++ [.received o]) (by simp [hlog]) (by simp [hpost, Entry.sent?])

theorem Settled.tell (h : Settled me log outgoing updates pending last?) (o : Order) (pending' : List Submission) :
    Settled me log outgoing (updates ++ [o]) pending' last? := by
  have hne : updates ++ [o] ≠ [] := by simp
  cases h with
  | untouched => exact .untouched
  | untold c o' hc | coming c o' hc => exact .coming c o' hc hne
  | told c o' hc pre o'' post hlog hpost => exact .told c o' hc pre o'' post hlog hpost
  | own o' pre post hlog hpost => exact .own o' pre post hlog hpost

/-- The others are told of the kiosk's own version. -/
theorem Settled.tellOthers (h : Settled me log outgoing updates pending last?) (o : Order) :
    Settled me log outgoing updates (pending.erase (me, o)) last? := by
  cases h with
  | untouched => exact .untouched
  | untold c o' hc hmem =>
    have hne : (c, o') ≠ (me, o) := fun heq => hc (congrArg Prod.fst heq)
    exact .untold c o' hc ((List.mem_erase_of_ne hne).2 hmem)
  | coming c o' hc hne => exact .coming c o' hc hne
  | told c o' hc pre o'' post hlog hpost => exact .told c o' hc pre o'' post hlog hpost
  | own o' pre post hlog hpost => exact .own o' pre post hlog hpost

theorem exists_of_filterMap_sent {log : List Entry} {before rest : List Order} {o : Order}
    (h : log.filterMap Entry.sent? = before ++ o :: rest) :
    ∃ pre post, log = pre ++ .sent o :: post ∧ post.filterMap Entry.sent? = rest := by
  obtain ⟨l₁, l₂, rfl, -, h₂⟩ := List.filterMap_eq_append_iff.1 h
  obtain ⟨skipped, e, post, rfl, -, he, hpost⟩ := List.filterMap_eq_cons_iff.1 h₂
  cases e with
  | received => cases he
  | sent o' =>
    cases he
    exact ⟨l₁ ++ skipped, post, by simp, hpost⟩

theorem exists_map_received {log : List Entry} (h : log.filterMap Entry.sent? = []) :
    ∃ os : List Order, log = os.map .received := by
  induction log with
  | nil => exact ⟨[], rfl⟩
  | cons e log ih =>
    cases e with
    | sent => simp [Entry.sent?] at h
    | received o =>
      obtain ⟨os, hos⟩ := ih (by simpa [Entry.sent?] using h)
      exact ⟨o :: os, by simp [hos]⟩

theorem mem_filterMap_received {log : List Entry} {o : Order} :
    o ∈ log.filterMap Entry.received? ↔ .received o ∈ log := by
  refine List.mem_filterMap.trans ⟨?_, fun h => ⟨_, h, rfl⟩⟩
  rintro ⟨e, he, heq⟩
  cases e with
  | sent => cases heq
  | received =>
    cases heq
    exact he

end

namespace Track

variable {me : ConnectionId} {log : List Entry} {outgoing updates : List Order}
  {stored announced pending : List Submission}

theorem start (me : ConnectionId) : Track me [] [] [] [] [] [] := ⟨rfl, rfl, .nil, .untouched⟩

theorem submit (h : Track me log outgoing updates stored announced pending) (o : Order) :
    Track me (log ++ [.sent o]) (outgoing ++ [o]) updates stored announced pending where
  sent := by simp [h.sent, Entry.sent?]
  received := by simpa [Entry.received?, List.filterMap_cons] using h.received
  split := h.split
  settled := h.settled.submit o

theorem hear {o : Order} (h : Track me log outgoing (o :: updates) stored announced pending) :
    Track me (log ++ [.received o]) outgoing updates stored announced pending where
  sent := by simp [h.sent, Entry.sent?]
  received := by simp [← h.received, Entry.received?]
  split := h.split
  settled := h.settled.hear

theorem split_store (h : stored.Perm (announced ++ pending)) (s : Submission) :
    (stored ++ [s]).Perm (announced ++ (pending ++ [s])) := by
  rw [← List.append_assoc]
  exact h.append_right [s]

/-- The server stores a version that another kiosk submitted. -/
theorem store (h : Track me log outgoing updates stored announced pending) {c : ConnectionId} (hc : c ≠ me)
    (o : Order) :
    Track me log outgoing updates (stored ++ [(c, o)]) announced (pending ++ [(c, o)]) where
  sent := by rw [ownOf_concat_other hc, h.sent]
  received := h.received
  split := split_store h.split (c, o)
  settled := by
    rw [List.getLast?_concat]
    exact .untold c o hc (by simp)

/-- The server stores the kiosk's own version. -/
theorem storeOwn {o : Order} (h : Track me log (o :: outgoing) updates stored announced pending) :
    Track me log outgoing updates (stored ++ [(me, o)]) announced (pending ++ [(me, o)]) where
  sent := by rw [ownOf_concat_self, h.sent, List.append_assoc, List.singleton_append]
  received := h.received
  split := split_store h.split (me, o)
  settled := by
    obtain ⟨pre, post, hlog, hpost⟩ := exists_of_filterMap_sent h.sent
    rw [List.getLast?_concat]
    exact .own o pre post hlog hpost

theorem split_announce (h : stored.Perm (announced ++ pending)) {s : Submission} (hs : s ∈ pending) :
    stored.Perm (announced ++ [s] ++ pending.erase s) := by
  rw [List.append_assoc]
  exact h.trans ((List.perm_cons_erase hs).append_left announced)

/-- The server tells of a version that another kiosk submitted. -/
theorem announce (h : Track me log outgoing updates stored announced pending) {c : ConnectionId} (hc : c ≠ me)
    {o : Order} (ho : (c, o) ∈ pending) :
    Track me log outgoing (updates ++ [o]) stored (announced ++ [(c, o)]) (pending.erase (c, o)) where
  sent := h.sent
  received := by rw [othersOf_concat_other hc, ← h.received, List.append_assoc]
  split := split_announce h.split ho
  settled := h.settled.tell o _

/-- The server tells of the kiosk's own version. -/
theorem announceOwn (h : Track me log outgoing updates stored announced pending) {o : Order} (ho : (me, o) ∈ pending) :
    Track me log outgoing updates stored (announced ++ [(me, o)]) (pending.erase (me, o)) where
  sent := h.sent
  received := by rw [othersOf_concat_self, h.received]
  split := split_announce h.split ho
  settled := h.settled.tellOthers o

theorem exists_stored (h : Track me log [] [] stored announced []) (hlog : log ≠ []) :
    ∃ earlier c o, stored = earlier ++ [(c, o)] := by
  cases hlast : stored.getLast? with
  | some s => exact (List.getLast?_eq_some_iff.1 hlast).imp fun earlier heq => ⟨s.1, s.2, heq⟩
  | none =>
    obtain rfl := List.getLast?_eq_none_iff.1 hlast
    have hnone : announced = [] := (List.append_eq_nil_iff.1 h.split.nil_eq.symm).1
    have hsent : log.filterMap Entry.sent? = [] := h.sent
    have hreceived : log.filterMap Entry.received? = [] := by
      rw [← List.append_nil (log.filterMap _), h.received, hnone]
      rfl
    obtain ⟨os, rfl⟩ := exists_map_received hsent
    cases os with
    | nil => exact absurd rfl hlog
    | cons => cases hreceived

/-- Nothing is on its way, and the version that was stored last is another's:
the kiosk has last what it was told last. -/
theorem latest_of_other (h : Track me log [] [] stored announced []) {c : ConnectionId} {o : Order}
    (hlast : stored.getLast? = some (c, o)) (hc : c ≠ me) :
    log.getLast?.map Entry.order = (othersOf me announced).getLast? := by
  have hsettled := h.settled
  rw [hlast] at hsettled
  cases hsettled with
  | untold c o hc hmem => cases hmem
  | coming c o hc hne => exact absurd rfl hne
  | told c o hc pre o' post hpre hsuffix =>
    obtain rfl := List.suffix_nil.1 hsuffix
    rw [← h.received, hpre]
    simp [Entry.received?]
  | own => exact absurd rfl hc

/-- Nothing is on its way, and the version that was stored last is the kiosk's
own: what came after it had been stored before. -/
theorem crossed_of_own {earlier : List Submission} {o : Order}
    (h : Track me log [] [] (earlier ++ [(me, o)]) announced []) :
    ∃ (pre : List Entry) (crossed : List Order), log = pre ++ .sent o :: crossed.map .received ∧
      ∀ o' ∈ crossed, ∃ c, c ≠ me ∧ (c, o') ∈ earlier := by
  have hsettled := h.settled
  rw [List.getLast?_concat] at hsettled
  cases hsettled with
  | untold c o hc | coming c o hc | told c o hc => exact absurd rfl hc
  | own o pre post hpost hnone =>
    obtain ⟨crossed, rfl⟩ := exists_map_received hnone
    refine ⟨pre, crossed, hpost, fun o' ho' => ?_⟩
    have hreceived : o' ∈ log.filterMap Entry.received? := mem_filterMap_received.2 (by simp [hpost, ho'])
    have hothers : o' ∈ othersOf me announced := h.received ▸ List.mem_append_left [] hreceived
    obtain ⟨c, hc, hmem⟩ := mem_othersOf.1 hothers
    have hstored := h.split.mem_iff.2 (List.mem_append_left [] hmem)
    rw [List.mem_append, List.mem_singleton, Prod.mk.injEq] at hstored
    exact ⟨c, hc, hstored.resolve_right fun heq => hc heq.1⟩

end Track

/-! ## Every order on a line -/

/-- The packet tells of a version of an order. -/
def Packet.told? : Packet → Option Order
  | .orderUpdated update => some update.order
  | _ => none

/-- What is on its way between the server and a kiosk, oldest first, and what
the kiosk sent and received of orders so far. -/
structure Line where
  outgoing : List Order
  incoming : List Packet
  log : List Entry

def Line.logOf (l : Line) (n : Int64) : List Entry := l.log.filter (·.order.orderId = n)

def Line.latest? (l : Line) (n : Int64) : Option Order := (l.logOf n).getLast?.map Entry.order

def about (n : Int64) (os : List Order) : List Order := os.filter (·.orderId = n)

/-- The orders of a number are on their track, if this waits for the kiosk. -/
def Line.OnTrack (l : Line) (me : ConnectionId) (waiting : List Packet) (stored announced pending : List Submission)
    (n : Int64) : Prop :=
  Track me (l.logOf n) (about n l.outgoing) (about n ((l.incoming ++ waiting).filterMap Packet.told?))
    (submissionsOf n stored) (submissionsOf n announced) (submissionsOf n pending)

namespace Line.OnTrack

variable {l : Line} {me c : ConnectionId} {waiting : List Packet} {stored announced pending : List Submission}
  {n : Int64} {o : Order}

theorem submit (h : l.OnTrack me waiting stored announced pending n) (o : Order) :
    OnTrack { l with outgoing := l.outgoing ++ [o], log := l.log ++ [.sent o] } me waiting stored announced pending
      n := by
  by_cases hn : o.orderId = n
  · have hsubmit := Track.submit h o
    simpa [OnTrack, logOf, about, hn] using hsubmit
  · simpa [OnTrack, logOf, about, hn] using h

theorem store (h : l.OnTrack me waiting stored announced pending n) (hc : c ≠ me) (o : Order) :
    l.OnTrack me waiting (stored ++ [(c, o)]) announced (pending ++ [(c, o)]) n := by
  rw [OnTrack, submissionsOf_concat, submissionsOf_concat]
  split
  · exact Track.store h hc o
  · exact h

theorem storeOwn (h : l.OnTrack me waiting stored announced pending n) {rest : List Order}
    (hout : l.outgoing = o :: rest) :
    OnTrack { l with outgoing := rest } me waiting (stored ++ [(me, o)]) announced (pending ++ [(me, o)]) n := by
  rw [OnTrack, hout] at h
  rw [OnTrack, submissionsOf_concat, submissionsOf_concat]
  by_cases hn : o.orderId = n
  · rw [about, List.filter_cons_of_pos (by simpa using hn)] at h
    rw [if_pos hn, if_pos hn]
    exact Track.storeOwn h
  · rw [about, List.filter_cons_of_neg (by simpa using hn)] at h
    rwa [if_neg hn, if_neg hn]

theorem mem_submissionsOf {s : Submission} (hs : s ∈ pending) (hn : s.2.orderId = n) : s ∈ submissionsOf n pending :=
  List.mem_filter.2 ⟨hs, decide_eq_true hn⟩

theorem announce (h : l.OnTrack me waiting stored announced pending n) (hc : c ≠ me) (ho : (c, o) ∈ pending) :
    l.OnTrack me (waiting ++ [.orderUpdated ⟨o⟩]) stored (announced ++ [(c, o)]) (pending.erase (c, o)) n := by
  rw [OnTrack, submissionsOf_concat, submissionsOf_erase]
  by_cases hn : o.orderId = n
  · have htold := Track.announce h hc (mem_submissionsOf ho hn)
    simpa [about, Packet.told?, hn] using htold
  · rw [OnTrack] at h
    simpa [about, Packet.told?, hn] using h

theorem announceOwn (h : l.OnTrack me waiting stored announced pending n) (ho : (me, o) ∈ pending) :
    l.OnTrack me waiting stored (announced ++ [(me, o)]) (pending.erase (me, o)) n := by
  rw [OnTrack, submissionsOf_concat, submissionsOf_erase]
  by_cases hn : o.orderId = n
  · rw [if_pos hn, if_pos hn]
    exact Track.announceOwn h (mem_submissionsOf ho hn)
  · rwa [if_neg hn, if_neg hn]

theorem forward {p : Packet} (h : l.OnTrack me (p :: waiting) stored announced pending n) :
    OnTrack { l with incoming := l.incoming ++ [p] } me waiting stored announced pending n := by
  rwa [OnTrack, List.append_cons] at h

theorem receive (h : l.OnTrack me waiting stored announced pending n) {p : Packet} {rest : List Packet}
    (hin : l.incoming = p :: rest) :
    OnTrack { l with incoming := rest, log := l.log ++ p.told?.toList.map .received } me waiting stored announced
      pending n := by
  rw [OnTrack, hin] at h
  cases hp : p.told? with
  | none => simpa [OnTrack, logOf, about, hp] using h
  | some o =>
    by_cases hn : o.orderId = n
    · have hcons : about n ((p :: rest ++ waiting).filterMap Packet.told?) =
          o :: about n ((rest ++ waiting).filterMap Packet.told?) := by
        simp [about, hp, hn]
      rw [hcons] at h
      have hheard := Track.hear h
      simpa [OnTrack, logOf, hn] using hheard
    · simpa [OnTrack, logOf, about, hp, hn] using h

end Line.OnTrack

end OrderDesk
