import OrderDesk.Client.Packets
import OrderDesk.Proofs.Server.Peers
import OrderDesk.Proofs.Server.Run

/-!
# What packets say

A topic is a whole registry, or what a registry lists under one id. A packet of
the server may say what a topic is now; the last word counts. What the server
queues for a peer when it writes brings every topic that is watched from the
old directory to the new one, and a kiosk that handles a packet takes it at its
word.
-/

namespace OrderDesk

structure Topic where
  registryId : String
  /-- Without one the topic is the whole registry. -/
  elementId? : Option String
  deriving DecidableEq

namespace Topic

def excerpt (t : Topic) (es : List Entity) : List Entity :=
  match t.elementId? with
  | none => es
  | some id => Registry.listed id es

def read (t : Topic) (d : Directory) : List Entity := t.excerpt (d.listing t.registryId)

/-- What is known on the topic after a packet. -/
def hear (t : Topic) (known : List Entity) : Packet → List Entity
  | .responseData snapshot => if snapshot.registryId = t.registryId then t.excerpt snapshot.entities else known
  | .orderUpdated update => if t = ⟨RegistryId.orders, some update.order.elementId⟩ then [.order update.order] else known
  | _ => known

def hearAll (t : Topic) (known : List Entity) (ps : List Packet) : List Entity := ps.foldl t.hear known

theorem hearAll_append (t : Topic) (known : List Entity) (ps qs : List Packet) :
    t.hearAll known (ps ++ qs) = t.hearAll (t.hearAll known ps) qs := List.foldl_append

/-- A packet is silent on a topic, or it says all there is to know. -/
theorem hear_cases (t : Topic) (p : Packet) : (∀ known, t.hear known p = known) ∨ ∃ said, ∀ known, t.hear known p = said := by
  cases p with
  | responseData snapshot =>
    by_cases h : snapshot.registryId = t.registryId
    · exact .inr ⟨_, fun _ => if_pos h⟩
    · exact .inl fun _ => if_neg h
  | orderUpdated update =>
    by_cases h : t = ⟨RegistryId.orders, some update.order.elementId⟩
    · exact .inr ⟨_, fun _ => if_pos h⟩
    · exact .inl fun _ => if_neg h
  | _ => exact .inl fun _ => rfl

theorem hearAll_cases (t : Topic) (ps : List Packet) :
    (∀ known, t.hearAll known ps = known) ∨ ∃ said, ∀ known, t.hearAll known ps = said := by
  induction ps with
  | nil => exact .inl fun _ => rfl
  | cons p ps ih =>
    rcases ih with ih | ⟨said, ih⟩
    · rcases t.hear_cases p with h | ⟨said, h⟩
      · exact .inl fun known => (ih _).trans (h known)
      · exact .inr ⟨said, fun known => (ih _).trans (h known)⟩
    · exact .inr ⟨said, fun known => ih _⟩

theorem hearAll_congr (t : Topic) {ps : List Packet} {snapshot : ResponseData} (h : .responseData snapshot ∈ ps)
    (hid : snapshot.registryId = t.registryId) (known known' : List Entity) :
    t.hearAll known ps = t.hearAll known' ps := by
  obtain ⟨before, after, rfl⟩ := List.append_of_mem h
  rw [hearAll_append, hearAll_append]
  have hsaid : ∀ known, t.hear known (.responseData snapshot) = t.excerpt snapshot.entities := fun _ => if_pos hid
  simp only [hearAll, List.foldl_cons, hsaid]

theorem hearAll_twice (t : Topic) {start known : List Entity} {ps : List Packet} (h : t.hearAll start ps = known) :
    t.hearAll known ps = known := by
  rcases t.hearAll_cases ps with hps | ⟨said, hps⟩
  · exact hps known
  · exact (hps known).trans ((hps start).symm.trans h)

theorem hearAll_between (t : Topic) {start known : List Entity} {ps qs : List Packet} (hps : t.hearAll known ps = known)
    (hqs : t.hearAll start qs = known) : t.hearAll (t.hearAll start ps) qs = known := by
  rcases t.hearAll_cases qs with h | ⟨said, h⟩
  · obtain rfl : start = known := (h start).symm.trans hqs
    rw [h, hps]
  · exact (h _).trans ((h start).symm.trans hqs)

end Topic

/-! ## What is watched -/

/-- The registry of orders has the standard kind and policy. -/
def Live (shape : String → Option (EntityKind × Policy)) : Prop :=
  shape RegistryId.orders = some (.order, .descendingOrderId)

/-- Orders are watched one by one, every other registry as a whole. -/
structure Topic.Watched (shape : String → Option (EntityKind × Policy)) (t : Topic) : Prop where
  registry : (shape t.registryId).isSome
  element : t.elementId?.isSome ↔ t.registryId = RegistryId.orders ∧ Live shape

/-- A packet that the server may have queued: the snapshot of a registry that
files under own ids, or an order. -/
def Sound (shape : String → Option (EntityKind × Policy)) : Packet → Prop
  | .responseData snapshot => ∃ r : Registry, r.Own ∧ r.response = snapshot ∧ shape r.id = some (r.kind, r.policy)
  | .orderUpdated _ => Live shape
  | _ => False

namespace Directory

variable {d : Directory}

theorem live_iff : Live d.shape ↔ ∃ r, d.orders? = some r := by
  constructor
  · intro h
    obtain ⟨r, hr⟩ := exists_of_shape h
    exact ⟨r, orders?_eq_some_iff.2 hr⟩
  · rintro ⟨r, hr⟩
    obtain ⟨hget, hkind, hpolicy⟩ := orders?_eq_some_iff.1 hr
    rw [Live, shape_of_get? hget, hkind, hpolicy]

theorem exists_of_watched {t : Topic} (ht : t.Watched d.shape) : ∃ r, d.get? t.registryId = some r := by
  obtain ⟨⟨kind, policy⟩, h⟩ := Option.isSome_iff_exists.1 ht.registry
  obtain ⟨r, hr, -⟩ := exists_of_shape h
  exact ⟨r, hr⟩

theorem hear_orderUpdated {r : Registry} {e : Element r.kind} {o : Order} (hr : d.orders? = some r)
    (he : e.entity = .order o) {t : Topic} (ht : t.Watched d.shape) (hown : t.registryId = RegistryId.orders → r.Own) :
    t.hear (t.read d) (.orderUpdated ⟨o⟩) = t.read (d.set (r.upsert e)) := by
  have hget := (orders?_eq_some_iff.1 hr).1
  have hrid := id_of_get? hget
  rw [Topic.read, Topic.read, listing_set_upsert (get?_self hget)]
  by_cases hid : t.registryId = RegistryId.orders
  · obtain ⟨id, hsome⟩ := Option.isSome_iff_exists.1 (ht.element.2 ⟨hid, live_iff.2 ⟨r, hr⟩⟩)
    obtain ⟨registryId, elementId?⟩ := t
    obtain rfl : registryId = RegistryId.orders := hid
    obtain rfl : elementId? = some id := hsome
    have heid : e.id = o.elementId := congrArg Entity.elementId he
    rw [if_pos hrid, listing_of_get? hget]
    simp only [Topic.hear, Topic.excerpt, Topic.mk.injEq, true_and, Option.some.injEq]
    rw [(hown rfl).listed_upsert, heid, he]
    simp only [eq_comm]
  · have hne : t ≠ ⟨RegistryId.orders, some o.elementId⟩ := fun h => hid (congrArg Topic.registryId h)
    rw [if_neg fun h => hid (h.symm.trans hrid), Topic.hear, if_neg hne]

theorem hear_response {r : Registry} (hr : d.get? r.id = some r) (t : Topic) (known : List Entity) :
    t.hear known (.responseData r.response) = if r.id = t.registryId then t.read d else known := by
  rw [Topic.hear, Topic.read]
  show (if r.id = t.registryId then t.excerpt r.snapshot else known) = _
  split
  · next hid => rw [← hid, listing_of_get? hr]
  · rfl

theorem sound_response {r : Registry} (hr : d.get? r.id = some r) (hown : r.Own) :
    Sound d.shape (.responseData r.response) :=
  ⟨r, hown, rfl, shape_of_get? hr⟩

def news (d : Directory) (ids : List String) : List Packet :=
  ids.filterMap fun id => (d.get? id).map fun r => .responseData r.response

theorem news_ids (d : Directory) : d.news d.ids = d.registries.map fun r => .responseData r.response := by
  rw [news, ids, List.filterMap_map]
  refine List.filterMap_eq_map_iff_forall_eq_some.2 fun r hr => ?_
  rw [Function.comp_apply, get?_of_mem hr]
  rfl

theorem sound_news (hown : ∀ id, d.Owns id) (ids : List String) : ∀ p ∈ d.news ids, Sound d.shape p := by
  intro p hp
  obtain ⟨id, -, hp⟩ := List.mem_filterMap.1 hp
  obtain ⟨r, hr, rfl⟩ := Option.map_eq_some_iff.1 hp
  exact sound_response (get?_self hr) (hown id r hr)

theorem hearAll_news (d : Directory) {t : Topic} (ht : t.Watched d.shape) {known : List Entity} {ids : List String}
    (h : t.registryId ∉ ids → known = t.read d) : t.hearAll known (d.news ids) = t.read d := by
  induction ids generalizing known with
  | nil => exact h List.not_mem_nil
  | cons id ids ih =>
    rw [news, List.filterMap_cons]
    cases hr : d.get? id with
    | none =>
      refine ih fun hids => h fun hmem => ?_
      rcases List.mem_cons.1 hmem with hid | hmem
      · obtain ⟨r, hr'⟩ := exists_of_watched ht
        cases hr.symm.trans (hid ▸ hr')
      · exact hids hmem
    | some r =>
      have hhear := hear_response (get?_self hr) t known
      rw [id_of_get? hr] at hhear
      refine ih fun hids => ?_
      rw [hhear]
      split
      · rfl
      · next hid => exact h fun hmem => (List.mem_cons.1 hmem).elim (Ne.symm hid) hids

end Directory

/-! ## What the server queues -/

namespace Server

variable {s : Server} {me sender : ConnectionId} {encrypted : Bool} {waiting : List Packet}

theorem queues_announce (h : s.peers.Queues me encrypted waiting) (id : String) {except? : Option ConnectionId}
    (hne : except? ≠ some me) :
    (s.announce id except?).peers.Queues me encrypted
      (if encrypted then waiting ++ s.directory.news [id] else waiting) := by
  unfold announce
  split
  · next hr =>
    rw [Directory.news, List.filterMap_cons, hr]
    cases encrypted with
    | true => exact (List.append_nil waiting).symm ▸ h
    | false => exact h
  · next r hr =>
    rw [Directory.news, List.filterMap_cons, hr]
    exact h.broadcast (.responseData r.response) hne

theorem queues_told (h : s.peers.Queues me encrypted waiting) (d : Directory) (ids : List String)
    {except? : Option ConnectionId} (hne : except? ≠ some me) :
    (s.told d ids except?).peers.Queues me encrypted (if encrypted then waiting ++ d.news ids else waiting) := by
  suffices hfold : ∀ s' : Server, s'.directory = d → s'.peers.Queues me encrypted waiting →
      (ids.foldl (fun s id => s.announce id except?) s').peers.Queues me encrypted
        (if encrypted then waiting ++ d.news ids else waiting) from hfold _ rfl h
  clear h
  induction ids generalizing waiting with
  | nil =>
    intro s' _ h
    cases encrypted with
    | true => exact (List.append_nil waiting).symm ▸ h
    | false => exact h
  | cons id ids ih =>
    intro s' hd h
    have hstep := queues_announce h id hne
    have htail := ih (s'.announce id except?) ((s'.announce_keeps id except?).1.trans hd) hstep
    cases encrypted with
    | true =>
      rw [if_pos rfl, if_pos rfl, hd, List.append_assoc] at htail
      have hnews : d.news (id :: ids) = d.news [id] ++ d.news ids := List.filterMap_append (l := [id])
      rw [if_pos rfl, hnews]
      exact htail
    | false => exact htail

theorem queues_filed (h : s.peers.Queues me encrypted waiting) (orders : Registry) (e : Element orders.kind)
    (hne : sender ≠ me) (o : Order) :
    (s.filed orders e sender o).peers.Queues me encrypted
      (if encrypted then waiting ++ [.orderUpdated ⟨o⟩] else waiting) :=
  PeerTable.Queues.broadcast h _ fun heq => hne (Option.some.inj heq)

/-- What is queued for a peer on the way to another state brings every watched
topic there. A peer that is not encrypted gets nothing. -/
def Relays (s s' : Server) (me : ConnectionId) (encrypted : Bool) (waiting : List Packet) : Prop :=
  ∃ ps, s'.peers.Queues me encrypted (if encrypted then waiting ++ ps else waiting) ∧
    (∀ p ∈ ps, Sound s'.directory.shape p) ∧
    ∀ t : Topic, t.Watched s.directory.shape → t.hearAll (t.read s.directory) ps = t.read s'.directory

theorem relays_of_eq {s' : Server} (hq : s'.peers.Queues me encrypted waiting) (hd : s'.directory = s.directory) :
    s.Relays s' me encrypted waiting := by
  refine ⟨[], ?_, nofun, fun t _ => by rw [hd]; rfl⟩
  rwa [List.append_nil, ite_self]

theorem relays_told {s' : Server} (hq : s'.peers.Queues me encrypted waiting) {d : Directory} {ids : List String}
    (hd : s.directory.Rewrites d ids) (hown : ∀ id, s.directory.Owns id) {except? : Option ConnectionId}
    (hne : except? ≠ some me) : s.Relays (s'.told d ids except?) me encrypted waiting := by
  have hdir := (s'.told_keeps d ids except?).1
  refine ⟨d.news ids, queues_told hq d ids hne, ?_, fun t ht => ?_⟩
  · rw [hdir]
    exact Directory.sound_news (fun id => hd.owns id (hown id)) ids
  · rw [hdir]
    refine d.hearAll_news (hd.shape ▸ ht) fun hid => ?_
    rw [Topic.read, Topic.read, hd.listing _ hid]

theorem relays_filed (s' : Server) (hq : s'.peers.Queues me encrypted waiting) (hd : s'.directory = s.directory)
    (hown : ∀ id, s.directory.Owns id) {orders : Registry} (hr : s.directory.orders? = some orders)
    {e : Element orders.kind} {o : Order} (he : e.entity = .order o) (hne : sender ≠ me) :
    s.Relays (s'.filed orders e sender o) me encrypted waiting := by
  have hget := (Directory.orders?_eq_some_iff.1 hr).1
  have hdir : (s'.filed orders e sender o).directory = s.directory.set (orders.upsert e) := by rw [← hd]; rfl
  refine ⟨[.orderUpdated ⟨o⟩], queues_filed hq orders e hne o, ?_, fun t ht => ?_⟩
  · intro p hp
    obtain rfl := List.mem_singleton.1 hp
    rw [hdir, (Directory.keeps_set_upsert (Directory.get?_self hget) e).shape]
    exact Directory.live_iff.2 ⟨orders, hr⟩
  · rw [hdir]
    exact Directory.hear_orderUpdated hr he ht fun _ => hown _ orders hget

theorem handled_relays {p : Packet} {out : Outcome} (h : Handled s sender p out) (hne : sender ≠ me)
    (hown : ∀ id, s.directory.Owns id) (hq : s.peers.Queues me encrypted waiting) :
    s.Relays out.1 me encrypted waiting := by
  have hexcept : some sender ≠ some me := fun heq => hne (Option.some.inj heq)
  cases h with
  | answered | dropped | refused | withoutOrders | exhausted => exact relays_of_eq hq rfl
  | checkedOut o orders e ho h hr he =>
    exact relays_filed { s with nextOrderId := s.nextOrderId + 1 } hq rfl hown hr he hne
  | resubmitted o orders e ho hr he =>
    exact relays_filed (s.numberAbove o.orderId) hq rfl hown hr he hne
  | loaded snapshot r es hid hr hes =>
    have hrewrites := Directory.rewrites_set_replaceAll (Directory.get?_self hr) es
    rw [Directory.id_of_get? hr] at hrewrites
    exact relays_told hq hrewrites hown hexcept
  | mismatched added e => exact relays_of_eq (s.peers_numberAboveEntity added.entity ▸ hq) (s.directory_numberAboveEntity _)
  | added registryId r e hr =>
    have hrewrites := Directory.rewrites_set_upsert (Directory.get?_self hr) e
    rw [Directory.id_of_get? hr] at hrewrites
    exact relays_told (s.peers_numberAboveEntity e.entity ▸ hq) hrewrites hown nofun
  | deleted deleted x h => exact relays_told hq (Directory.delete_from h).rewrites hown nofun

theorem after_relays {m : Move} (hne : m.connection ≠ me) (hown : ∀ id, s.directory.Owns id)
    (hq : s.peers.Queues me encrypted waiting) : s.Relays (s.after m) me encrypted waiting := by
  cases m with
  | packet sender p =>
    have hafter : s.after (.packet sender p) = (s.dispatch sender p).1 := rfl
    rw [hafter, dispatch]
    split
    · exact handled_relays (s.handled sender p) hne hown hq
    · exact relays_of_eq hq rfl
  | join c => exact relays_of_eq (hq.insert hne) rfl
  | welcome c clientId => exact relays_of_eq ((hq.note hne _ _).note hne _ _) rfl
  | forward c =>
    have hafter : s.after (.forward c) = (s.forward c).1 := rfl
    rw [hafter, forward]
    split
    · exact relays_of_eq hq rfl
    · next p peers htake =>
      obtain ⟨peer, hpeer, htake⟩ := Option.bind_eq_some_iff.1 htake
      exact relays_of_eq (hq.take?_of_ne (fun p hp => PeerTable.mailbox_ne hp hpeer hne) htake) rfl
  | leave c =>
    have hafter : s.after (.leave c) = s.leave c := rfl
    rw [hafter, leave]
    split
    · exact relays_of_eq hq rfl
    · next peer hpeer => exact relays_of_eq (hq.leave hne hpeer) rfl

theorem dispatch_request (s : Server) (sender : ConnectionId) (registryId : String) :
    s.dispatch sender (.requestData ⟨registryId⟩) =
      (s, s.directory.news (if registryId = RegistryId.all then s.directory.ids else [registryId])) := by
  have hdispatch : s.dispatch sender (.requestData ⟨registryId⟩) =
      (s, (((s.directory.answer ⟨registryId⟩).map (·.map Packet.responseData)).mapError
        NodeError.registry).toOption.getD []) :=
    rfl
  rw [hdispatch, Directory.answer]
  split
  · rw [Directory.news_ids]
    exact congrArg (Prod.mk s) List.map_map
  · rw [Directory.require, Directory.news, List.filterMap_cons]
    cases s.directory.get? registryId <;> rfl

end Server

/-! ## What a kiosk makes of it -/

namespace Kiosk

variable {k : Kiosk}

theorem handle_response {snapshot : ResponseData} (h : Sound k.directory.shape (.responseData snapshot)) :
    ∃ (r : Registry) (es : List (Element r.kind)), k.directory.get? snapshot.registryId = some r ∧
      (k.handle (.responseData snapshot)).1.directory = k.directory.set (r.replaceAll es) ∧
      (r.replaceAll es).snapshot = snapshot.entities := by
  obtain ⟨r', hown, rfl, hshape⟩ := h
  obtain ⟨r, hget, hkind, hpolicy⟩ := Directory.exists_of_shape hshape
  obtain ⟨es, hreplace, hsnapshot⟩ := Registry.exists_replaceEntities hown hkind hpolicy
  refine ⟨r, es, hget, ?_, hsnapshot⟩
  have hload : k.directory.load r'.response = .ok (k.directory.set (r.replaceAll es)) := by
    have hreplace' : r.replaceEntities r'.response.entities = .ok (r.replaceAll es) := hreplace
    have hrequire : k.directory.require r'.response.registryId = .ok r := Directory.require_eq_ok_iff.2 hget
    rw [Directory.load, hrequire]
    show (r.replaceEntities r'.response.entities).map k.directory.set = _
    rw [hreplace']
    rfl
  rw [handle, takeSnapshot, hload]
  rfl

theorem handle_order {o : Order} (h : Live k.directory.shape) :
    ∃ (r : Registry) (e : Element r.kind), k.directory.orders? = some r ∧ e.entity = .order o ∧
      (k.handle (.orderUpdated ⟨o⟩)).1.directory = k.directory.set (r.upsert e) := by
  obtain ⟨r, hr⟩ := Directory.live_iff.1 h
  obtain ⟨e, he, hupsert⟩ := Registry.exists_upsertEntity_order (Directory.orders?_eq_some_iff.1 hr).2.1 o
  refine ⟨r, e, hr, he, ?_⟩
  have htake : k.handle (.orderUpdated ⟨o⟩) = k.takeOrder o := rfl
  simp only [htake, takeOrder, hr, hupsert]
  rfl

/-- A kiosk holds what it hears. Of orders that holds once its registry of
orders files under own ids, as it does after a snapshot. -/
theorem handle_hears {p : Packet} (h : Sound k.directory.shape p) :
    k.directory.Keeps (k.handle p).1.directory ∧
      (∀ snapshot, p = .responseData snapshot → (k.handle p).1.directory.Owns snapshot.registryId) ∧
      ∀ t : Topic, t.Watched k.directory.shape →
        (t.registryId = RegistryId.orders → k.directory.Owns RegistryId.orders ∨ ∃ snapshot, p = .responseData snapshot) →
        t.hear (t.read k.directory) p = t.read (k.handle p).1.directory := by
  cases p with
  | responseData snapshot =>
    obtain ⟨r, es, hget, hd, hsnapshot⟩ := handle_response h
    have hself := Directory.get?_self hget
    have hrid := Directory.id_of_get? hget
    rw [hd]
    refine ⟨Directory.keeps_set_replaceAll hself es, ?_, fun t _ _ => ?_⟩
    · rintro _ ⟨⟩ r' hr'
      rw [show (k.directory.set (r.replaceAll es)).get? snapshot.registryId = _ from
        Directory.get?_set_transact hself snapshot.registryId, if_pos hrid] at hr'
      cases hr'
      exact r.own_replaceAll es
    · rw [Topic.hear, Topic.read, Topic.read, Directory.listing_set_replaceAll hself, hrid, hsnapshot]
      split <;> rfl
  | orderUpdated update =>
    obtain ⟨r, e, hr, he, hd⟩ := handle_order (o := update.order) h
    have hget := (Directory.orders?_eq_some_iff.1 hr).1
    rw [show (k.handle (.orderUpdated update)).1.directory = _ from hd]
    refine ⟨Directory.keeps_set_upsert (Directory.get?_self hget) e, nofun, fun t ht hown => ?_⟩
    refine Directory.hear_orderUpdated hr he ht fun hid => ?_
    rcases hown hid with hown | ⟨_, hp⟩
    · exact hown r hget
    · cases hp
  | _ => exact h.elim

end Kiosk

end OrderDesk
