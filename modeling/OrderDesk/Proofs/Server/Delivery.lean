import Mathlib.Data.Finset.Card
import Mathlib.Logic.Function.Basic
import OrderDesk.Proofs.Server.Mailboxes

/-!
# Who gets which message

Anything is done with a table of peers, in any order, while the readers take
what has come or go away. A mailbox gets what is sent to its connection, and
what is broadcast once the connection is encrypted, from the entry of the
connection until it is entered anew or removed or the reader goes. Main result:
`mailboxes_hear`.
-/

namespace OrderDesk.PeerTable

variable {μ : Type}

/-! ## Histories -/

inductive Move (μ : Type)
  | insert (c : ConnectionId)
  | setClientId (c : ConnectionId) (clientId : String)
  | markEncrypted (c : ConnectionId)
  | remove (c : ConnectionId)
  | send (c : ConnectionId) (message : μ)
  | broadcast (message : μ) (except? : Option ConnectionId)
  /-- The reader of a mailbox takes what came first. -/
  | take (number : Nat)
  /-- The reader of a mailbox goes away. -/
  | close (number : Nat)

/-- A table with what the readers of its mailboxes have taken. -/
structure Traffic (μ : Type) where
  table : PeerTable μ
  taken : Nat → List μ

namespace Traffic

def start : Traffic μ := ⟨.empty, fun _ => []⟩

def step (x : Traffic μ) : Move μ → Traffic μ
  | .insert c => { x with table := x.table.insert c }
  | .setClientId c clientId => { x with table := x.table.setClientId c clientId }
  | .markEncrypted c => { x with table := x.table.markEncrypted c }
  | .remove c => { x with table := x.table.remove c }
  | .send c message => { x with table := x.table.send c message }
  | .broadcast message except? => { x with table := x.table.broadcast message except? }
  | .take n =>
    match x.table.take? n with
    | none => x
    | some (message, table) => ⟨table, Function.update x.taken n (x.taken n ++ [message])⟩
  | .close n => { x with table := x.table.close n }

def run (x : Traffic μ) (ms : List (Move μ)) : Traffic μ := ms.foldl step x

/-- All that has come into a mailbox, in the order in which it came. -/
def received (x : Traffic μ) (n : Nat) : List μ := x.taken n ++ x.table.contents n

end Traffic

/-! ## What there is to hear -/

namespace Move

/-- The mailbox that a connection had is no longer its own. -/
def vacates (c : ConnectionId) : Move μ → Bool
  | insert c' | remove c' => c' = c
  | _ => false

def closes (n : Nat) : Move μ → Bool
  | close n' => n' = n
  | _ => false

def ends (c : ConnectionId) (n : Nat) (m : Move μ) : Bool := m.vacates c || m.closes n

def encrypts (c : ConnectionId) : Move μ → Bool
  | markEncrypted c' => c' = c
  | _ => false

/-- What a move brings to the mailbox of a connection, after what was done since
the connection was entered with it. -/
def brings? (c : ConnectionId) (n : Nat) (since : List (Move μ)) : Move μ → Option μ
  | send c' message => if c' = c ∧ ¬ since.any (ends c n) then some message else none
  | broadcast message except? =>
    if except? ≠ some c ∧ since.any (encrypts c) ∧ ¬ since.any (ends c n) then some message else none
  | _ => none

def entered? : Move μ → Option ConnectionId
  | insert c => some c
  | _ => none

end Move

def heardAfter (c : ConnectionId) (n : Nat) : (since ms : List (Move μ)) → List μ
  | _, [] => []
  | since, m :: ms => (m.brings? c n since).toList ++ heardAfter c n (since ++ [m]) ms

/-- The messages that a mailbox is to get, from the entry of its connection on. -/
def heard (c : ConnectionId) (n : Nat) (ms : List (Move μ)) : List μ := heardAfter c n [] ms

/-- The number of entries that were made. Each has a mailbox of its own. -/
def entries (ms : List (Move μ)) : Nat := (ms.filterMap Move.entered?).length

section
variable {t : PeerTable μ} {x : Traffic μ} {c c' : ConnectionId} {p : Peer} {n : Nat} {encrypted : Bool}
  {since : List (Move μ)}

/-! ## One move -/

theorem length_step (x : Traffic μ) (m : Move μ) :
    (x.step m).table.mailboxes.length = x.table.mailboxes.length + m.entered?.toList.length := by
  cases m with
  | insert c => exact List.length_append
  | take n =>
    rw [Traffic.step]
    cases htake : x.table.take? n with
    | none => rfl
    | some out => exact (take?_spec htake).2.1
  | setClientId | markEncrypted | remove => rfl
  | send | broadcast | close => exact List.length_mapIdx

theorem isOpen_step (m : Move μ) (hn : n < x.table.mailboxes.length) :
    (x.step m).table.isOpen n = (x.table.isOpen n && !m.closes n) := by
  cases m with
  | insert c =>
    rw [Traffic.step, isOpen, mailboxes_insert_of_lt x.table c hn]
    exact (Bool.and_true _).symm
  | take k =>
    rw [Traffic.step]
    cases htake : x.table.take? k with
    | none => exact (Bool.and_true _).symm
    | some out => exact ((take?_spec htake).2.2.1 n).trans (Bool.and_true _).symm
  | setClientId | markEncrypted | remove => exact (Bool.and_true _).symm
  | send | broadcast => exact (isOpen_deliver ..).trans (Bool.and_true _).symm
  | close k => exact isOpen_close x.table k n

/-- An entry stays, with its mailbox, until the connection is entered anew or
removed. -/
theorem get?_step {m : Move μ} (hm : m.vacates c = false) (hp : x.table.get? c = some p) :
    ∃ p', (x.step m).table.get? c = some p' ∧ p'.mailbox = p.mailbox ∧
      p'.encrypted = (p.encrypted || m.encrypts c) := by
  have hnote : ∀ (c' : ConnectionId) (clientId? : Option String) (encrypted : Bool),
      ∃ p', (x.table.note c' clientId? encrypted).get? c = some p' ∧ p'.mailbox = p.mailbox ∧
        p'.encrypted = (p.encrypted || (encrypted && decide (c' = c))) := by
    intro c' clientId? encrypted
    rw [get?_note, hp, Option.map_some, connection_of_get? hp]
    by_cases hc : c = c'
    · subst hc
      rw [if_pos rfl]
      exact ⟨_, rfl, rfl, by simp [Peer.note]⟩
    · rw [if_neg hc]
      exact ⟨_, rfl, rfl, by simp [Ne.symm hc]⟩
  have hsame : ∀ {t : PeerTable μ}, t.peers = x.table.peers → m.encrypts c = false →
      ∃ p', t.get? c = some p' ∧ p'.mailbox = p.mailbox ∧ p'.encrypted = (p.encrypted || m.encrypts c) := by
    intro t hpeers hencrypts
    refine ⟨p, ?_, rfl, by rw [hencrypts, Bool.or_false]⟩
    rw [get?, hpeers]
    exact hp
  cases m with
  | insert c' => exact ⟨p, (x.table.get?_insert (of_decide_eq_false hm)).trans hp, rfl, (Bool.or_false _).symm⟩
  | remove c' =>
    exact ⟨p, (find?_others (of_decide_eq_false hm) x.table.peers).trans hp, rfl, (Bool.or_false _).symm⟩
  | setClientId c' clientId => exact hnote c' (some clientId) false
  | markEncrypted c' => exact hnote c' none true
  | take k =>
    rw [Traffic.step]
    cases htake : x.table.take? k with
    | none => exact hsame rfl rfl
    | some out => exact hsame (take?_spec htake).1 rfl
  | send | broadcast | close => exact hsame rfl rfl

theorem mem_mailboxes_insert_iff (t : PeerTable μ) (c : ConnectionId) (hn : n < t.mailboxes.length) :
    n ∈ (t.insert c).peers.map (·.mailbox) ↔ n ∈ (others c t.peers).map (·.mailbox) := by
  have hinsert : (t.insert c).peers.map (·.mailbox) = (others c t.peers).map (·.mailbox) ++ [t.mailboxes.length] :=
    List.map_append
  rw [hinsert, List.mem_append, List.mem_singleton]
  exact or_iff_left (Nat.ne_of_lt hn)

/-- A mailbox without an entry gets none. -/
theorem not_mem_mailboxes_step (m : Move μ) (hn : n < x.table.mailboxes.length)
    (h : n ∉ x.table.peers.map (·.mailbox)) : n ∉ (x.step m).table.peers.map (·.mailbox) := by
  have hothers : ∀ c, n ∉ (others c x.table.peers).map (·.mailbox) := fun c hin =>
    h (((others_sublist c x.table.peers).map _).mem hin)
  cases m with
  | insert c => exact fun hin => hothers c ((mem_mailboxes_insert_iff x.table c hn).1 hin)
  | remove c => exact hothers c
  | setClientId c clientId => exact (mailboxes_noted c (some clientId) false x.table.peers).symm ▸ h
  | markEncrypted c => exact (mailboxes_noted c none true x.table.peers).symm ▸ h
  | take k =>
    rw [Traffic.step]
    cases htake : x.table.take? k with
    | none => exact h
    | some out =>
      dsimp only
      rw [(take?_spec htake).1]
      exact h
  | send | broadcast | close => exact h

theorem not_mem_mailboxes_of_vacates {m : Move μ} (hm : m.vacates c = true) (hp : x.table.get? c = some p)
    (hn : p.mailbox < x.table.mailboxes.length) : p.mailbox ∉ (x.step m).table.peers.map (·.mailbox) := by
  have hothers : p.mailbox ∉ (others c x.table.peers).map (·.mailbox) := by
    intro hin
    obtain ⟨p', hp', heq⟩ := List.mem_map.1 hin
    have hmem := (others_sublist c x.table.peers).mem hp'
    obtain rfl : p' = p := List.inj_on_of_nodup_map x.table.mailboxes_nodup hmem (mem_of_get? hp) heq
    exact not_mem_others c x.table.peers (List.mem_map.2 ⟨p', hp', connection_of_get? hp⟩)
  cases m with
  | insert c' =>
    obtain rfl : c' = c := of_decide_eq_true hm
    exact fun hin => hothers ((mem_mailboxes_insert_iff x.table c' hn).1 hin)
  | remove c' =>
    obtain rfl : c' = c := of_decide_eq_true hm
    exact hothers
  | _ => cases hm

/-! ## A mailbox along a history -/

/-- The connection has an entry with the mailbox, which is open. -/
structure Serves (t : PeerTable μ) (c : ConnectionId) (n : Nat) (encrypted : Bool) : Prop where
  entry : ∃ p, t.get? c = some p ∧ p.mailbox = n ∧ p.encrypted = encrypted
  isOpen : t.isOpen n = true

/-- Nothing comes into the mailbox any more. -/
structure Idle (t : PeerTable μ) (n : Nat) : Prop where
  lt : n < t.mailboxes.length
  unreached : t.isOpen n = true → n ∉ t.peers.map (·.mailbox)

theorem Serves.lt (h : x.table.Serves c n encrypted) : n < x.table.mailboxes.length := by
  obtain ⟨p, hp, rfl, -⟩ := h.entry
  exact x.table.mailbox_lt p (mem_of_get? hp)

theorem Serves.step (h : x.table.Serves c n encrypted) {m : Move μ} (hm : m.ends c n = false) :
    (x.step m).table.Serves c n (encrypted || m.encrypts c) := by
  rw [Move.ends, Bool.or_eq_false_iff] at hm
  obtain ⟨p, hp, hn, he⟩ := h.entry
  obtain ⟨p', hp', hmailbox, hencrypted⟩ := get?_step hm.1 hp
  refine ⟨⟨p', hp', hmailbox.trans hn, hencrypted.trans (by rw [he])⟩, ?_⟩
  rw [isOpen_step m h.lt, h.isOpen, hm.2]
  rfl

theorem Serves.idle_step (h : x.table.Serves c n encrypted) {m : Move μ} (hm : m.ends c n = true) :
    (x.step m).table.Idle n := by
  refine ⟨(length_step x m).symm ▸ Nat.lt_add_right _ h.lt, fun hopen => ?_⟩
  rw [isOpen_step m h.lt, Bool.and_eq_true, Bool.not_eq_true'] at hopen
  rw [Move.ends, hopen.2, Bool.or_false] at hm
  have hlt := h.lt
  obtain ⟨p, hp, rfl, -⟩ := h.entry
  exact not_mem_mailboxes_of_vacates hm hp hlt

theorem Idle.step (h : x.table.Idle n) (m : Move μ) : (x.step m).table.Idle n := by
  refine ⟨(length_step x m).symm ▸ Nat.lt_add_right _ h.lt, fun hopen => ?_⟩
  rw [isOpen_step m h.lt, Bool.and_eq_true] at hopen
  exact not_mem_mailboxes_step m h.lt (h.unreached hopen.1)

/-- What a mailbox is, by what was done since its connection was entered. -/
def Tended (t : PeerTable μ) (c : ConnectionId) (n : Nat) (since : List (Move μ)) : Prop :=
  if since.any (Move.ends c n) then t.Idle n else t.Serves c n (since.any (Move.encrypts c))

theorem Tended.step (h : x.table.Tended c n since) (m : Move μ) : (x.step m).table.Tended c n (since ++ [m]) := by
  unfold Tended at h ⊢
  simp only [List.any_append, List.any_cons, List.any_nil, Bool.or_false]
  cases hended : since.any (Move.ends c n) with
  | true =>
    rw [hended, if_pos rfl] at h
    exact h.step m
  | false =>
    rw [hended, if_neg Bool.false_ne_true] at h
    cases hm : m.ends c n with
    | true => exact h.idle_step hm
    | false => exact h.step hm

theorem tended_insert (x : Traffic μ) (c : ConnectionId) :
    (x.step (.insert c)).table.Tended c x.table.mailboxes.length [] := by
  refine ⟨⟨_, x.table.get?_insert_self c, rfl, rfl⟩, ?_⟩
  have hbox : (x.table.insert c).mailboxes[x.table.mailboxes.length]? = some .empty := List.getElem?_concat_length
  rw [Traffic.step, isOpen, hbox]
  rfl

/-! ## What comes in -/

theorem mem_recipient?_iff : n ∈ (t.recipient? c).toList.map (·.mailbox) ↔
    t.isOpen n = true ∧ ∃ p, t.get? c = some p ∧ p.mailbox = n := by
  simp only [List.mem_map, Option.mem_toList, recipient?, Option.filter_eq_some_iff]
  constructor
  · rintro ⟨p, ⟨hp, hopen⟩, rfl⟩
    exact ⟨hopen, p, hp, rfl⟩
  · rintro ⟨hopen, p, hp, rfl⟩
    exact ⟨p, ⟨hp, hopen⟩, rfl⟩

theorem Serves.mem_recipient?_iff (h : t.Serves c n encrypted) :
    n ∈ (t.recipient? c').toList.map (·.mailbox) ↔ c' = c := by
  obtain ⟨p, hp, rfl, -⟩ := h.entry
  rw [PeerTable.mem_recipient?_iff, and_iff_right h.isOpen]
  constructor
  · rintro ⟨p', hp', heq⟩
    by_contra hne
    exact mailbox_ne hp hp' hne heq.symm
  · rintro rfl
    exact ⟨p, hp, rfl⟩

theorem Serves.mem_recipients_iff (h : t.Serves c n encrypted) {except? : Option ConnectionId} :
    n ∈ (t.recipients except?).map (·.mailbox) ↔ except? ≠ some c ∧ encrypted = true := by
  obtain ⟨p, hp, rfl, rfl⟩ := h.entry
  rw [PeerTable.mem_recipients_iff, and_iff_right h.isOpen, ← connection_of_get? hp]
  constructor
  · rintro ⟨p', hp', heq, he, hexcept⟩
    obtain rfl : p' = p := List.inj_on_of_nodup_map t.mailboxes_nodup hp' (mem_of_get? hp) heq
    exact ⟨hexcept.symm, he⟩
  · rintro ⟨hexcept, he⟩
    exact ⟨p, mem_of_get? hp, rfl, he, hexcept.symm⟩

theorem Idle.not_mem_recipient? (h : t.Idle n) (c : ConnectionId) : n ∉ (t.recipient? c).toList.map (·.mailbox) := by
  rw [mem_recipient?_iff]
  rintro ⟨hopen, p, hp, rfl⟩
  exact h.unreached hopen (List.mem_map.2 ⟨p, mem_of_get? hp, rfl⟩)

theorem Idle.not_mem_recipients (h : t.Idle n) (except? : Option ConnectionId) :
    n ∉ (t.recipients except?).map (·.mailbox) := by
  rw [mem_recipients_iff]
  rintro ⟨hopen, p, hp, rfl, -⟩
  exact h.unreached hopen (List.mem_map.2 ⟨p, hp, rfl⟩)

theorem received_send (x : Traffic μ) (c : ConnectionId) (message : μ) (n : Nat) :
    (x.step (.send c message)).received n =
      x.received n ++ if n ∈ (x.table.recipient? c).toList.map (·.mailbox) then [message] else [] :=
  (congrArg (x.taken n ++ ·) (contents_deliver (fun _ => reaches_of_mem_recipient?) message n)).trans
    (List.append_assoc ..).symm

theorem received_broadcast (x : Traffic μ) (message : μ) (except? : Option ConnectionId) (n : Nat) :
    (x.step (.broadcast message except?)).received n =
      x.received n ++ if n ∈ (x.table.recipients except?).map (·.mailbox) then [message] else [] :=
  (congrArg (x.taken n ++ ·) (contents_deliver (fun _ => reaches_of_mem_recipients) message n)).trans
    (List.append_assoc ..).symm

/-- Whether a message was taken makes no difference to what has come in. -/
theorem received_take (x : Traffic μ) (k n : Nat) : (x.step (.take k)).received n = x.received n := by
  rw [Traffic.step]
  cases htake : x.table.take? k with
  | none => rfl
  | some out =>
    rw [Traffic.received, Traffic.received, (take?_spec htake).2.2.2 n]
    by_cases hn : n = k
    · subst hn
      simp
    · simp [hn]

theorem received_close (x : Traffic μ) (k n : Nat) : (x.step (.close k)).received n = x.received n := by
  refine congrArg (x.taken n ++ ·) (contents_mapMailboxes fun box => ?_)
  split <;> rfl

theorem received_step (h : x.table.Tended c n since) (m : Move μ) :
    (x.step m).received n = x.received n ++ (m.brings? c n since).toList := by
  cases m with
  | insert c' => exact (congrArg (x.taken n ++ ·) (contents_insert x.table c' n)).trans (List.append_nil _).symm
  | setClientId | markEncrypted | remove => exact (List.append_nil _).symm
  | take k => exact (received_take x k n).trans (List.append_nil _).symm
  | close k => exact (received_close x k n).trans (List.append_nil _).symm
  | send c' message =>
    rw [received_send, Move.brings?]
    unfold Tended at h
    cases hended : since.any (Move.ends c n) with
    | true =>
      rw [hended, if_pos rfl] at h
      simp [h.not_mem_recipient? c']
    | false =>
      rw [hended, if_neg Bool.false_ne_true] at h
      by_cases hc : c' = c
      · simp [h.mem_recipient?_iff, hc]
      · simp [h.mem_recipient?_iff, hc]
  | broadcast message except? =>
    rw [received_broadcast, Move.brings?]
    unfold Tended at h
    cases hended : since.any (Move.ends c n) with
    | true =>
      rw [hended, if_pos rfl] at h
      simp [h.not_mem_recipients except?]
    | false =>
      rw [hended, if_neg Bool.false_ne_true] at h
      by_cases hreached : except? ≠ some c ∧ since.any (Move.encrypts c) = true
      · rw [if_pos (h.mem_recipients_iff.2 hreached), if_pos ⟨hreached.1, hreached.2, Bool.false_ne_true⟩]
        rfl
      · rw [if_neg (mt h.mem_recipients_iff.1 hreached), if_neg fun hall => hreached ⟨hall.1, hall.2.1⟩]
        rfl

theorem received_run (h : x.table.Tended c n since) (ms : List (Move μ)) :
    (x.run ms).received n = x.received n ++ heardAfter c n since ms := by
  induction ms generalizing x since with
  | nil => exact (List.append_nil _).symm
  | cons m ms ih =>
    have hrest := ih (h.step m)
    rw [received_step h m, List.append_assoc] at hrest
    exact hrest

end

/-! ## All histories -/

theorem table_run_close (x : Traffic μ) (numbers : List Nat) :
    (x.run (numbers.map .close)).table = x.table.shut numbers := by
  induction numbers generalizing x with
  | nil => rfl
  | cons k numbers ih => exact ih (x.step (.close k))

theorem run_append (x : Traffic μ) (ms ms' : List (Move μ)) : x.run (ms ++ ms') = (x.run ms).run ms' :=
  List.foldl_append

theorem length_run (ms : List (Move μ)) (x : Traffic μ) :
    (x.run ms).table.mailboxes.length = x.table.mailboxes.length + entries ms := by
  induction ms generalizing x with
  | nil => rfl
  | cons m ms ih =>
    have hentries : entries (m :: ms) = m.entered?.toList.length + entries ms := by
      rw [entries, List.filterMap_cons]
      cases m.entered? with
      | none => exact (Nat.zero_add _).symm
      | some c => exact Nat.add_comm ..
    rw [hentries, ← Nat.add_assoc, ← length_step]
    exact ih (x.step m)

/-- Nothing was taken from a mailbox that there is not yet. -/
theorem taken_run (ms : List (Move μ)) {x : Traffic μ}
    (h : ∀ n, x.table.mailboxes.length ≤ n → x.taken n = []) (n : Nat)
    (hn : (x.run ms).table.mailboxes.length ≤ n) : (x.run ms).taken n = [] := by
  induction ms generalizing x with
  | nil => exact h n hn
  | cons m ms ih =>
    refine ih (fun k hk => ?_) hn
    rw [length_step] at hk
    have hold := h k (by omega)
    cases m with
    | take number =>
      rw [Traffic.step]
      cases htake : x.table.take? number with
      | none => exact hold
      | some out =>
        have hfirst := (take?_spec htake).2.2.2 number
        have hlt : number < x.table.mailboxes.length := by
          by_contra hge
          rw [contents_of_le (Nat.le_of_not_lt hge), if_pos rfl] at hfirst
          cases hfirst
        dsimp only
        rw [Function.update_of_ne (by omega)]
        exact hold
    | _ => exact hold

theorem received_entry (before : List (Move μ)) (c : ConnectionId) :
    ((Traffic.start.run before).step (.insert c)).received (entries before) = [] := by
  have hlength : (Traffic.start.run before).table.mailboxes.length = entries before :=
    (length_run before Traffic.start).trans (Nat.zero_add _)
  have htaken : (Traffic.start.run before).taken (entries before) = [] :=
    taken_run before (fun _ _ => rfl) _ hlength.le
  have hcontents : ((Traffic.start.run before).step (.insert c)).table.contents (entries before) = [] :=
    (contents_insert _ c _).trans (contents_of_le hlength.le)
  rw [Traffic.received, hcontents, List.append_nil]
  exact htaken

theorem reached_broadcast (x : Traffic μ) (message : μ) (except? : Option ConnectionId) :
    ∃ reached : Finset Nat, reached.card = (x.table.recipients except?).length ∧
      ∀ n, (x.step (.broadcast message except?)).received n =
        x.received n ++ if n ∈ reached then [message] else [] := by
  have hnodup : ((x.table.recipients except?).map (·.mailbox)).Nodup :=
    (List.filter_sublist.map _).nodup x.table.mailboxes_nodup
  refine ⟨((x.table.recipients except?).map (·.mailbox)).toFinset, ?_, fun n => ?_⟩
  · rw [List.toFinset_card_of_nodup hnodup, List.length_map]
  · rw [received_broadcast]
    simp only [List.mem_toFinset]

theorem serve_run (x : Traffic μ) (message : μ) (except? : Option ConnectionId) (gone : Peer → List Nat)
    {turns : List Peer} (hturns : turns.Perm x.table.peers) :
    ∃ early late : List Nat, serve message except? gone turns x.table =
      ((x.run (early.map .close ++ .broadcast message except? :: late.map .close)).table,
        ((x.run (early.map .close)).table.recipients except?).length) := by
  obtain ⟨early, late, hserve⟩ := serve_broadcast message except? gone x.table hturns
  refine ⟨early, late, ?_⟩
  have hrun : (x.run (early.map .close ++ .broadcast message except? :: late.map .close)).table =
      ((x.table.shut early).broadcast message except?).shut late := by
    have hlate := table_run_close ((x.run (early.map .close)).step (.broadcast message except?)) late
    rw [run_append]
    exact hlate.trans (congrArg (fun t => (t.broadcast message except?).shut late) (table_run_close x early))
  rw [hserve, hrun, table_run_close]

/-- Whatever was done before a connection was entered and whatever is done since,
its mailbox has got what there is to hear of what was done since, in that order.
An entry is neither named nor encrypted at first. A broadcast comes into as many
mailboxes as it says, once into each. It makes no difference that it goes from
peer to peer, in any order, while readers go away. -/
theorem mailboxes_hear (before since : List (Move μ)) (c : ConnectionId) :
    let x := Traffic.start.run before
    (Traffic.start.run (before ++ .insert c :: since)).received (entries before) = heard c (entries before) since ∧
      (x.step (.insert c)).table.get? c = some ⟨c, none, false, entries before⟩ ∧
      (∀ message except?, ∃ reached : Finset Nat, reached.card = (x.table.recipients except?).length ∧
        ∀ n, (x.step (.broadcast message except?)).received n =
          x.received n ++ if n ∈ reached then [message] else []) ∧
      ∀ message except? gone turns, turns.Perm x.table.peers →
        ∃ early late : List Nat, serve message except? gone turns x.table =
          ((x.run (early.map .close ++ .broadcast message except? :: late.map .close)).table,
            ((x.run (early.map .close)).table.recipients except?).length) := by
  intro x
  have hlength : x.table.mailboxes.length = entries before :=
    (length_run before Traffic.start).trans (Nat.zero_add _)
  have hentry := x.table.get?_insert_self c
  have htended := tended_insert x c
  rw [hlength] at hentry htended
  refine ⟨?_, hentry, reached_broadcast x, fun message except? gone turns => serve_run x message except? gone⟩
  rw [run_append]
  exact (received_run htended since).trans (by rw [received_entry, List.nil_append, heard])

/-- A connection that was entered before is entered anew, with mailbox 2. -/
def reentered : List (Move String) :=
  [.insert ⟨1⟩, .markEncrypted ⟨1⟩, .insert ⟨2⟩, .markEncrypted ⟨2⟩, .close 1]

def sinceReentry : List (Move String) :=
  [.broadcast "menus" none, .markEncrypted ⟨1⟩, .broadcast "own" (some ⟨1⟩), .broadcast "sold out" none, .take 2,
    .send ⟨1⟩ "closing", .remove ⟨1⟩, .broadcast "late" none]

theorem mailboxes_hear_reentered :
    (Traffic.start.run (reentered ++ .insert ⟨1⟩ :: sinceReentry)).received 2 = ["sold out", "closing"] ∧
      let x := Traffic.start.run reentered
      x.table.peers.reverse.Perm x.table.peers ∧
        ∃ early late : List Nat, serve "menus" none (fun p => [p.mailbox]) x.table.peers.reverse x.table =
          ((x.run (early.map .close ++ .broadcast "menus" none :: late.map .close)).table,
            ((x.run (early.map .close)).table.recipients none).length) := by
  obtain ⟨hheard, -, -, hserve⟩ := mailboxes_hear reentered sinceReentry ⟨1⟩
  have hentries : heard ⟨1⟩ (entries reentered) sinceReentry = ["sold out", "closing"] := by decide
  rw [hentries] at hheard
  exact ⟨hheard, List.reverse_perm _, hserve "menus" none _ _ (List.reverse_perm _)⟩

end OrderDesk.PeerTable
