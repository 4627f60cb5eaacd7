import Mathlib.Data.List.Forall2
import Mathlib.Data.List.Nodup
import OrderDesk.Proofs.Json.Sorted
import OrderDesk.Proofs.Shape.RoundTrip

/-!
# What a value describes

A relation between untyped values and the values of a shape, by the structure
of the shape: which spellings there are, and that every field has to be there.
The reader accepts exactly what describes something, and reads what it
describes. The members of an untyped value stand in the order of their names,
each name once.
-/

namespace OrderDesk

/-! ## Results -/

section
variable {ε α β : Type}

theorem bind_eq_ok_iff {x : Except ε α} {f : α → Except ε β} {b : β} :
    x >>= f = .ok b ↔ ∃ a, x = .ok a ∧ f a = .ok b := by
  cases x with
  | error e => exact ⟨nofun, nofun⟩
  | ok a => exact ⟨fun h => ⟨a, rfl, h⟩, fun ⟨_, h, hf⟩ => by cases h; exact hf⟩

theorem map_eq_ok_iff {x : Except ε α} {f : α → β} {b : β} : f <$> x = .ok b ↔ ∃ a, x = .ok a ∧ f a = b := by
  cases x with
  | error e => exact ⟨nofun, nofun⟩
  | ok a => exact ⟨fun h => ⟨a, rfl, Except.ok.inj h⟩, fun ⟨_, h, hf⟩ => by cases h; exact congrArg Except.ok hf⟩

theorem mapM_eq_ok_iff {f : α → Except ε β} {R : α → β → Prop} {as : List α}
    (h : ∀ a ∈ as, ∀ b, f a = .ok b ↔ R a b) (bs : List β) : as.mapM f = .ok bs ↔ List.Forall₂ R as bs := by
  induction as generalizing bs with
  | nil =>
    rw [List.mapM_nil, List.forall₂_nil_left_iff]
    exact ⟨fun h => (Except.ok.inj h).symm, fun h => h ▸ rfl⟩
  | cons a as ih =>
    have ih := ih fun a' ha' => h a' (List.mem_cons_of_mem a ha')
    rw [List.mapM_cons, bind_eq_ok_iff]
    constructor
    · rintro ⟨b, hb, htail⟩
      obtain ⟨bs', hbs', heq⟩ := bind_eq_ok_iff.1 htail
      cases heq
      exact .cons ((h a List.mem_cons_self b).1 hb) ((ih bs').1 hbs')
    · intro hbs
      cases hbs with
      | cons hb hbs =>
        refine ⟨_, (h a List.mem_cons_self _).2 hb, bind_eq_ok_iff.2 ⟨_, (ih _).2 hbs, rfl⟩⟩

end

/-! ## The members of an untyped value -/

namespace Json

theorem sorted_items {items : List Json} (h : (array items).sorted = array items) : ∀ j ∈ items, j.sorted = j := by
  intro j hj
  simp only [sorted, array.injEq] at h
  rw [← h] at hj
  exact sorted_of_mem_sortedItems items j hj

theorem sorted_members {members : List (String × Json)} (h : (object members).sorted = object members) :
    Ascending members ∧ ∀ m ∈ members, m.2.sorted = m.2 := by
  simp only [sorted, object.injEq] at h
  refine ⟨h ▸ ascending_sortMembers _, fun m hm => ?_⟩
  rw [← h] at hm
  exact sorted_of_mem_sortedMembers members m (mem_sortMembers hm)

theorem Ascending.nodup {members : List (String × Json)} (h : Ascending members) : (members.map (·.1)).Nodup := by
  rw [List.Nodup, List.pairwise_map]
  refine h.imp ?_
  intro m n hlt heq
  rw [heq] at hlt
  exact String.lt_irrefl _ hlt

end Json

namespace Shape

/-! ## Describing -/

/-- A constant is written as its name, or as an object that has null under its
name and nothing else. -/
def Names {α : Type} (constants : Naming α) (j : Json) (a : α) : Prop :=
  j = .string (constants.name a) ∨ j = .object [(constants.name a, .null)]

mutual

def Describes : {α : Type} → Shape α → Json → α → Prop
  | _, text, j, s => j = .string s
  | _, flag, j, b => j = .bool b
  | _, integer width, j, a => j = .number (.integer (width.toInt a))
  | _, any, j, a => j = a
  | _, list item, j, as => ∃ js, j = .array js ∧ List.Forall₂ (fun j a => item.Describes j a) js as
  | _, choice constants, j, a => Names constants j a
  | _, record _ fields _ parts _ _, j, a =>
    (∃ members, j = .object members ∧ MembersDescribe fields members (parts a)) ∨
      ∃ js, j = .array js ∧ ItemsDescribe fields js (parts a)
  | _, tagged _ kinds body make _ _, j, a =>
    ∃ k v, a = make k v ∧
      ((∃ members kind value, j = .object members ∧ (kindName, kind) ∈ members ∧ (valueName, value) ∈ members ∧
          Names kinds kind k ∧ (body k).Describes value v) ∨
        ∃ value, j = .array [.string (kinds.name k), value] ∧ (body k).Describes value v)

/-- Every field has a member, whatever other members there are. -/
def MembersDescribe : {β π : Type} → Fields β π → List (String × Json) → β → Prop
  | _, _, .nil, _, () => True
  | _, _, .cons name shape rest, members, (value, values) =>
    (∃ j, (name, j) ∈ members ∧ shape.Describes j value) ∧ MembersDescribe rest members values

/-- The items are those of the fields, in their order. -/
def ItemsDescribe : {β π : Type} → Fields β π → List Json → β → Prop
  | _, _, .nil, js, () => js = []
  | _, _, .cons _ shape rest, js, (value, values) =>
    ∃ j js', js = j :: js' ∧ shape.Describes j value ∧ ItemsDescribe rest js' values

end

/-! ## Constants and numbers -/

section
variable {α β π : Type}

theorem ofName_eq_ok_iff (constants : Naming α) (s : String) (a : α) :
    ofName constants s = .ok a ↔ s = constants.name a := by
  unfold ofName
  split
  · next b hb =>
    rw [constants.find?_eq_some_iff] at hb
    subst hb
    constructor
    · intro h
      cases h
      rfl
    · intro h
      rw [constants.name_injective b a h]
  · next hnone =>
    refine ⟨nofun, fun h => ?_⟩
    rw [h, constants.find?_name] at hnone
    cases hnone

theorem ofIdentifier_eq_ok_iff (constants : Naming α) (j : Json) (a : α) :
    ofIdentifier constants j = .ok a ↔ j = .string (constants.name a) := by
  cases j with
  | string s =>
    show ofName constants s = _ ↔ _
    rw [ofName_eq_ok_iff, Json.string.injEq]
  | null | bool | number | array | object => exact ⟨nofun, nofun⟩

theorem isUnit_tree (j : Json) : Origin.tree.isUnit j ↔ j = .null := by
  cases j with
  | object members => cases members <;> exact ⟨nofun, nofun⟩
  | null => exact ⟨fun _ => rfl, fun _ => rfl⟩
  | bool | number | string | array => exact ⟨nofun, nofun⟩

theorem ofConstant_eq_ok_iff (constants : Naming α) (j : Json) (a : α) :
    ofConstant .tree constants j = .ok a ↔ Names constants j a := by
  unfold Names
  cases j with
  | string s =>
    show ofName constants s = _ ↔ _
    rw [ofName_eq_ok_iff]
    simp
  | object members =>
    match members with
    | [] => exact ⟨nofun, by simp⟩
    | _ :: _ :: _ => exact ⟨nofun, by simp⟩
    | [(s, j)] =>
      show (ofName constants s >>= fun b => if Origin.tree.isUnit j then pure b else mismatch j "unit") = _ ↔ _
      rw [bind_eq_ok_iff]
      simp only [ofName_eq_ok_iff, isUnit_tree]
      constructor
      · rintro ⟨b, rfl, hb⟩
        split at hb
        · next hj =>
          cases hb
          exact .inr ((isUnit_tree j).1 hj ▸ rfl)
        · cases hb
      · intro h
        simp only [reduceCtorEq, Json.object.injEq, List.cons.injEq, Prod.mk.injEq, and_true, false_or] at h
        obtain ⟨rfl, rfl⟩ := h
        exact ⟨a, rfl, rfl⟩
  | null | bool | number | array => exact ⟨nofun, by simp⟩

theorem ofNumber_eq_ok_iff (width : Width α) (n : Number) (a : α) :
    ofNumber width n = .ok a ↔ n = .integer (width.toInt a) := by
  cases n with
  | float => exact ⟨nofun, nofun⟩
  | integer n =>
    rw [ofNumber, Number.integer.injEq]
    constructor
    · intro h
      split at h
      · next hn =>
        cases h
        exact (width.toInt_ofInt n hn.1 hn.2).symm
      · cases h
    · rintro rfl
      rw [if_pos ⟨width.low_le a, width.le_high a⟩, width.ofInt_toInt]

/-! ## Fields -/

theorem place_of_not_mem : {β π : Type} → (fields : Fields β π) → (origin : Origin) → {name' : String} →
    name' ∉ fields.names → (values? : π) → (j : Json) → place fields origin values? name' j = .ok values?
  | _, _, .nil, _, _, _, (), _ => rfl
  | _, _, .cons name shape rest, origin, name', h, (value?, values?), j => by
    simp only [names_cons, List.mem_cons, not_or] at h
    rw [place_of_ne shape rest origin h.1, place_of_not_mem rest origin h.2]
    rfl

variable {name : String} (shape : Shape α) (rest : Fields β π) {members : List (String × Json)}

/-- The member of a field is read wherever it stands, and the other fields are
read as if it were not there. -/
theorem foldlM_place_cons_eq_ok_iff (origin : Origin) (hname : name ∉ rest.names) (hn : (members.map (·.1)).Nodup)
    (start done : π) (value : α) :
    members.foldlM (fun values? m => place (.cons name shape rest) origin values? m.1 m.2) (none, start) =
        .ok (some value, done) ↔
      (∃ j, (name, j) ∈ members ∧ shape.ofJson origin j = .ok value) ∧
        members.foldlM (fun values? m => place rest origin values? m.1 m.2) start = .ok done := by
  induction members generalizing start with
  | nil => simp [pure, Except.pure]
  | cons m members ih =>
    obtain ⟨hnew, htail⟩ := List.nodup_cons.1 hn
    by_cases hm : m.1 = name
    · obtain ⟨name', j⟩ := m
      obtain rfl : name' = name := hm
      have hmember : ∀ j', (name', j') ∈ (name', j) :: members → j' = j := by
        intro j' hj'
        rcases List.mem_cons.1 hj' with heq | hj'
        · exact congrArg Prod.snd heq
        · exact absurd (List.mem_map_of_mem (f := Prod.fst) hj') hnew
      have hplace : place (.cons name' shape rest) origin (none, start) name' j =
          (fun value => (some value, start)) <$> shape.ofJson origin j := by
        simp [place]
      rw [List.foldlM_cons, hplace, List.foldlM_cons, place_of_not_mem rest origin hname]
      cases hj : shape.ofJson origin j with
      | error e =>
        refine iff_of_false (by simp [bind, Except.bind]) ?_
        rintro ⟨⟨j', hj', hvalue⟩, -⟩
        rw [hmember j' hj', hj] at hvalue
        cases hvalue
      | ok value' =>
        have hne : ∀ m ∈ members, m.1 ≠ name' := fun m hm heq => hnew (List.mem_map.2 ⟨m, hm, heq⟩)
        have hrest := foldlM_place_of_ne shape rest origin hne (some value') start
        refine (iff_of_eq (congrArg (· = _) hrest)).trans (map_eq_ok_iff.trans ?_)
        constructor
        · rintro ⟨values?, hdone, heq⟩
          cases heq
          exact ⟨⟨j, List.mem_cons_self, hj⟩, hdone⟩
        · rintro ⟨⟨j', hj', hvalue⟩, hdone⟩
          rw [hmember j' hj', hj] at hvalue
          cases hvalue
          exact ⟨done, hdone, rfl⟩
    · have hmember : ∀ j, (name, j) ∈ m :: members ↔ (name, j) ∈ members := by
        intro j
        rw [List.mem_cons]
        exact or_iff_right fun heq => hm (congrArg Prod.fst heq).symm
      rw [List.foldlM_cons, List.foldlM_cons, place_of_ne shape rest origin hm]
      simp only [hmember]
      cases place rest origin start m.1 m.2 with
      | error e => simp [bind, Except.bind]
      | ok values? => exact ih htail values?

end

/-! ## Kinds and values -/

/-- An object with a kind and a value has no other members that matter, and has
them in this order. -/
theorem filter_relevant_eq_iff {members : List (String × Json)} (h : Json.Ascending members) {kind value : Json} :
    (members.filter fun m => m.1 = kindName || m.1 = valueName) = [(kindName, kind), (valueName, value)] ↔
      (kindName, kind) ∈ members ∧ (valueName, value) ∈ members := by
  constructor
  · intro heq
    have hmem : ∀ m ∈ [(kindName, kind), (valueName, value)], m ∈ members := fun m hm =>
      (List.mem_filter.1 (heq ▸ hm)).1
    exact ⟨hmem _ (by simp), hmem _ (by simp)⟩
  · rintro ⟨hkind, hvalue⟩
    have hlt : kindName < valueName := by decide
    have hpair : Json.Ascending [(kindName, kind), (valueName, value)] := List.pairwise_pair.2 hlt
    have hfilter : Json.Ascending (members.filter fun m => m.1 = kindName || m.1 = valueName) := h.filter _
    have hmem : ∀ m, m ∈ (members.filter fun m => m.1 = kindName || m.1 = valueName) ↔
        m ∈ [(kindName, kind), (valueName, value)] := by
      intro m
      simp only [List.mem_filter, Bool.or_eq_true, decide_eq_true_eq, List.mem_cons, List.not_mem_nil, or_false]
      constructor
      · rintro ⟨hm, hname | hname⟩
        · exact .inl (List.inj_on_of_nodup_map h.nodup hm hkind hname)
        · exact .inr (List.inj_on_of_nodup_map h.nodup hm hvalue hname)
      · rintro (rfl | rfl)
        · exact ⟨hkind, .inl rfl⟩
        · exact ⟨hvalue, .inr rfl⟩
    have hperm := (List.perm_ext_iff_of_nodup (.of_map _ hfilter.nodup) (.of_map _ hpair.nodup)).2 hmem
    refine hperm.eq_of_pairwise ?_ hfilter hpair
    intro m n _ _ hmn hnm
    exact absurd hnm (String.lt_asymm hmn)

theorem ofJson_tagged_object_iff {κ α : Type} {γ : κ → Type} {title : String} {kinds : Naming κ}
    {body : (k : κ) → Shape (γ k)} {make : (k : κ) → γ k → α} {split : α → (k : κ) × γ k}
    {make_split : ∀ a, make (split a).1 (split a).2 = a} {members : List (String × Json)}
    (hm : Json.Ascending members) (a : α) :
    (tagged title kinds body make split make_split).ofJson .tree (.object members) = .ok a ↔
      ∃ kind value, (kindName, kind) ∈ members ∧ (valueName, value) ∈ members ∧
        ∃ k, ofConstant .tree kinds kind = .ok k ∧ ∃ v, (body k).ofJson .tree value = .ok v ∧ make k v = a := by
  have hlt : kindName < valueName := by decide
  have hne : valueName ≠ kindName := by decide
  have hascending : Json.Ascending (members.filter fun m => m.1 = kindName || m.1 = valueName) := hm.filter _
  have hnames : ∀ m ∈ members.filter fun m => m.1 = kindName || m.1 = valueName, m.1 = kindName ∨ m.1 = valueName := by
    intro m hm
    simpa using (List.mem_filter.1 hm).2
  have hpair : ∀ kind value : Json, (members.filter fun m => m.1 = kindName || m.1 = valueName) =
      [(kindName, kind), (valueName, value)] ↔ (kindName, kind) ∈ members ∧ (valueName, value) ∈ members :=
    fun kind value => filter_relevant_eq_iff hm
  rw [ofJson]
  simp only [← and_assoc, ← hpair]
  generalize (members.filter fun m => m.1 = kindName || m.1 = valueName) = relevant at hascending hnames ⊢
  constructor
  · intro hread
    cases relevant with
    | nil => cases hread
    | cons m rest =>
      obtain ⟨name, j⟩ := m
      by_cases hname : name = kindName
      · subst hname
        simp only [if_pos] at hread
        obtain ⟨k, hk, hread⟩ := bind_eq_ok_iff.1 hread
        cases rest with
        | nil => cases hread
        | cons m rest =>
          obtain ⟨name', value⟩ := m
          have hlater := (List.pairwise_cons.1 hascending).1 (name', value) List.mem_cons_self
          have hname' : name' = valueName := by
            refine (hnames (name', value) (by simp)).resolve_left fun heq => ?_
            exact String.lt_irrefl _ (heq ▸ hlater)
          subst hname'
          simp only [if_neg hne] at hread
          obtain ⟨v, hv, hread⟩ := bind_eq_ok_iff.1 hread
          cases rest with
          | nil =>
            cases hread
            exact ⟨j, value, rfl, k, hk, v, hv, rfl⟩
          | cons => cases hread
      · have hvalue : name = valueName := (hnames (name, j) (by simp)).resolve_left hname
        subst hvalue
        simp only [if_neg hne] at hread
        cases rest with
        | nil => cases hread
        | cons m rest =>
          obtain ⟨name', kind⟩ := m
          have hlater := (List.pairwise_cons.1 hascending).1 (name', kind) List.mem_cons_self
          rcases hnames (name', kind) (by simp) with heq | heq
          · exact absurd (heq ▸ hlater) (String.lt_asymm hlt)
          · exact absurd (heq ▸ hlater) (String.lt_irrefl _)
  · rintro ⟨kind, value, rfl, k, hk, v, hv, rfl⟩
    simp [hk, hv, hne, noneLeft, bind, Except.bind, pure, Except.pure]

/-! ## Reading -/

theorem length_of_items : {β π : Type} → (fields : Fields β π) → {js : List Json} → {b : β} →
    ItemsDescribe fields js b → js.length = fields.count
  | _, _, .nil, _, (), h => by
    cases h
    rfl
  | _, _, .cons _ shape rest, _, (_, _), h => by
    obtain ⟨j, js, rfl, -, hrest⟩ := h
    rw [List.length_cons, length_of_items rest hrest]
    rfl

mutual

theorem ofJson_eq_ok_iff : {α : Type} → (shape : Shape α) → {depth : Nat} → shape.Fits depth → {j : Json} →
    j.sorted = j → (a : α) → (shape.ofJson .tree j = .ok a ↔ shape.Describes j a)
  | _, text, _, _, j, _, a => by
    cases j <;> simp [ofJson, mismatch, Describes]
  | _, flag, _, _, j, _, a => by
    cases j <;> simp [ofJson, mismatch, Describes]
  | _, integer width, _, _, j, _, a => by
    cases j with
    | number n =>
      show ofNumber width n = _ ↔ Json.number n = _
      rw [ofNumber_eq_ok_iff, Json.number.injEq]
    | null | bool | string | array | object => exact ⟨nofun, nofun⟩
  | _, choice constants, _, _, j, _, a => by
    rw [ofJson, Describes, ofConstant_eq_ok_iff]
  | _, list item, _ + 1, h, j, hj, as => by
    cases j with
    | array js =>
      have hitems := Json.sorted_items hj
      show js.mapM (item.ofJson .tree) = .ok as ↔ ∃ js', Json.array js = .array js' ∧ List.Forall₂ item.Describes js' as
      rw [mapM_eq_ok_iff fun j hj a => ofJson_eq_ok_iff item h (hitems j hj) a]
      simp
    | null | bool | number | string | object => exact ⟨nofun, nofun⟩
  | _, record title fields make parts make_parts parts_make, _ + 1, h, j, hj, a => by
    have hmake : ∀ b, make b = a ↔ b = parts a := by
      intro b
      constructor
      · rintro rfl
        exact (parts_make b).symm
      · rintro rfl
        exact make_parts a
    cases j with
    | array js =>
      have hitems := ofItems_eq_ok_iff fields h.2 (structOf title fields.count) 0 (Json.sorted_items hj)
      show (ofItems fields (structOf title fields.count) .tree 0 js >>= fun values =>
        if fields.count < js.length then .error (Origin.tree.tooLong js.length fields.count) else pure (make values)) =
          .ok a ↔ _
      rw [bind_eq_ok_iff, Describes]
      simp only [hitems, reduceCtorEq, false_and, exists_false, false_or, Json.array.injEq, exists_eq_left']
      constructor
      · rintro ⟨b, hb, hmade⟩
        split at hmade
        · cases hmade
        · next hlength =>
          rw [List.take_of_length_le (Nat.le_of_not_lt hlength)] at hb
          exact (hmake b).1 (Except.ok.inj hmade) ▸ hb
      · intro hb
        have hlength := length_of_items fields hb
        refine ⟨parts a, ?_, ?_⟩
        · rw [List.take_of_length_le (Nat.le_of_eq hlength)]
          exact hb
        · rw [if_neg (Nat.not_lt_of_le (Nat.le_of_eq hlength)), make_parts]
          rfl
    | object members =>
      obtain ⟨hascending, hsorted⟩ := Json.sorted_members hj
      have hread := readMembers_iff fields h.2 h.1 hascending.nodup hsorted (parts a)
      show (members.foldlM (fun values? m => place fields .tree values? m.1 m.2) fields.blank >>= fun values? =>
        match fields.complete values? with
        | .ok values => pure (make values)
        | .error name => .error (.missingField name)) = .ok a ↔ _
      rw [bind_eq_ok_iff, Describes]
      simp only [reduceCtorEq, false_and, exists_false, or_false, Json.object.injEq, exists_eq_left']
      rw [← hread]
      refine exists_congr fun values? => and_congr_right fun _ => ?_
      split
      · next b hb =>
        rw [hb]
        exact ⟨fun hmade => congrArg Except.ok ((hmake b).1 (Except.ok.inj hmade)),
          fun heq => congrArg Except.ok ((hmake b).2 (Except.ok.inj heq))⟩
      · next name hname =>
        rw [hname]
        exact ⟨nofun, nofun⟩
    | null | bool | number | string => exact ⟨nofun, by simp [Describes]⟩
  | _, tagged title kinds body make _ _, _ + 1, h, j, hj, a => by
    cases j with
    | array js =>
      have hitems := Json.sorted_items hj
      match js with
      | [] => exact ⟨nofun, by simp [Describes]⟩
      | [kind] =>
        refine ⟨fun hread => ?_, by simp [Describes]⟩
        obtain ⟨k, -, hrest⟩ := bind_eq_ok_iff.1 hread
        cases hrest
      | kind :: value :: rest =>
        have hvalue := fun k => ofJson_eq_ok_iff (body k) (h k) (hitems value (by simp))
        show (ofIdentifier kinds kind >>= fun k => (body k).ofJson .tree value >>= fun v =>
          if rest.isEmpty then pure (make k v) else .error _) = .ok a ↔ _
        rw [bind_eq_ok_iff, Describes]
        simp only [reduceCtorEq, false_and, exists_false, false_or, Json.array.injEq, ofIdentifier_eq_ok_iff]
        constructor
        · rintro ⟨k, rfl, hrest⟩
          obtain ⟨v, hv, hmade⟩ := bind_eq_ok_iff.1 hrest
          split at hmade
          · next hempty =>
            cases hmade
            rw [List.isEmpty_iff.1 hempty]
            exact ⟨k, v, rfl, value, rfl, (hvalue k v).1 hv⟩
          · cases hmade
        · rintro ⟨k, v, rfl, value', heq, hv⟩
          cases heq
          exact ⟨k, rfl, bind_eq_ok_iff.2 ⟨v, (hvalue k v).2 hv, rfl⟩⟩
    | object members =>
      obtain ⟨hascending, hsorted⟩ := Json.sorted_members hj
      rw [ofJson_tagged_object_iff hascending, Describes]
      simp only [reduceCtorEq, false_and, exists_false, or_false, Json.object.injEq, ofConstant_eq_ok_iff]
      constructor
      · rintro ⟨kind, value, hkind, hvalue, k, hk, v, hv, rfl⟩
        exact ⟨k, v, rfl, members, kind, value, rfl, hkind, hvalue, hk,
          (ofJson_eq_ok_iff (body k) (h k) (hsorted _ hvalue) v).1 hv⟩
      · rintro ⟨k, v, rfl, _, kind, value, rfl, hkind, hvalue, hk, hv⟩
        exact ⟨kind, value, hkind, hvalue, k, hk, v, (ofJson_eq_ok_iff (body k) (h k) (hsorted _ hvalue) v).2 hv, rfl⟩
    | null | bool | number | string => exact ⟨nofun, by simp [Describes]⟩

theorem readMembers_iff : {β π : Type} → (fields : Fields β π) → {depth : Nat} → FieldsFit fields depth →
    fields.names.Nodup → {members : List (String × Json)} → (members.map (·.1)).Nodup →
    (∀ m ∈ members, m.2.sorted = m.2) → (b : β) →
    ((∃ values?, members.foldlM (fun values? m => place fields .tree values? m.1 m.2) fields.blank = .ok values? ∧
      fields.complete values? = .ok b) ↔ MembersDescribe fields members b)
  | _, _, .nil, _, _, _, members, _, _, () => by
    have hskip : ∀ ms : List (String × Json),
        ms.foldlM (fun values? m => place .nil .tree values? m.1 m.2) Fields.nil.blank = .ok () := by
      intro ms
      induction ms with
      | nil => rfl
      | cons m ms ih => exact ih
    exact ⟨fun _ => trivial, fun _ => ⟨(), hskip members, rfl⟩⟩
  | _, _, .cons name shape rest, _, h, hn, members, hnodup, hsorted, (value, values) => by
    obtain ⟨hname, hrest⟩ := List.nodup_cons.1 hn
    have hread := foldlM_place_cons_eq_ok_iff shape rest .tree hname hnodup rest.blank
    rw [MembersDescribe, ← readMembers_iff rest h.2 hrest hnodup hsorted values]
    constructor
    · rintro ⟨⟨value?, values?⟩, hfold, hcomplete⟩
      cases value? with
      | none => cases hcomplete
      | some value' =>
        obtain ⟨values', hvalues, heq⟩ := map_eq_ok_iff.1 hcomplete
        cases heq
        obtain ⟨⟨j, hj, hvalue⟩, hdone⟩ := (hread values? value).1 hfold
        exact ⟨⟨j, hj, (ofJson_eq_ok_iff shape h.1 (hsorted _ hj) value).1 hvalue⟩, values?, hdone, hvalues⟩
    · rintro ⟨⟨j, hj, hvalue⟩, values?, hdone, hvalues⟩
      refine ⟨(some value, values?), ?_, ?_⟩
      · exact (hread values? value).2 ⟨⟨j, hj, (ofJson_eq_ok_iff shape h.1 (hsorted _ hj) value).2 hvalue⟩, hdone⟩
      · exact map_eq_ok_iff.2 ⟨values, hvalues, rfl⟩

theorem ofItems_eq_ok_iff : {β π : Type} → (fields : Fields β π) → {depth : Nat} → FieldsFit fields depth →
    (expected : String) → (read : Nat) → {js : List Json} → (∀ j ∈ js, j.sorted = j) → (b : β) →
    (ofItems fields expected .tree read js = .ok b ↔ ItemsDescribe fields (js.take fields.count) b)
  | _, _, .nil, _, _, _, _, js, _, () => by
    exact ⟨fun _ => List.take_zero, fun _ => rfl⟩
  | _, _, .cons _ shape rest, _, h, expected, read, js, hsorted, (value, values) => by
    cases js with
    | nil => exact ⟨nofun, fun ⟨_, _, hnil, _⟩ => nomatch hnil⟩
    | cons j js =>
      have hrest := ofItems_eq_ok_iff rest h.2 expected (read + 1) fun j' hj' => hsorted j' (List.mem_cons_of_mem j hj')
      show (shape.ofJson .tree j >>= fun value => ofItems rest expected .tree (read + 1) js >>= fun values =>
        pure (value, values)) = _ ↔ _
      rw [bind_eq_ok_iff]
      constructor
      · rintro ⟨value', hvalue, htail⟩
        obtain ⟨values', hvalues, heq⟩ := bind_eq_ok_iff.1 htail
        cases heq
        exact ⟨j, _, rfl, (ofJson_eq_ok_iff shape h.1 (hsorted j List.mem_cons_self) value).1 hvalue,
          (hrest values).1 hvalues⟩
      · rintro ⟨j', js', heq, hvalue, hvalues⟩
        obtain ⟨rfl, rfl⟩ := List.cons.inj heq
        exact ⟨value, (ofJson_eq_ok_iff shape h.1 (hsorted j List.mem_cons_self) value).2 hvalue,
          bind_eq_ok_iff.2 ⟨values, (hrest values).2 hvalues, rfl⟩⟩

end

end Shape

end OrderDesk
