import OrderDesk.Proofs.Json.Document
import OrderDesk.Shape.OfJson

/-!
# Reading back what a shape writes

A shape reads back what it has written, with the members of its objects in
any order. This needs fields with names of their own, integers that a text
can hold, and no place for an untyped value.
-/

namespace OrderDesk

open Json (Plain)

namespace Fields

def names : {β π : Type} → Fields β π → List String
  | _, _, nil => []
  | _, _, cons name _ rest => name :: rest.names

/-- The places of the fields when each was read. -/
def filled : {β π : Type} → Fields β π → β → π
  | _, _, nil, () => ()
  | _, _, cons _ _ rest, (value, values) => (some value, rest.filled values)

theorem complete_filled : {β π : Type} → (fields : Fields β π) → (b : β) → fields.complete (fields.filled b) = .ok b
  | _, _, nil, () => rfl
  | _, _, cons _ _ rest, (value, values) => by
    simp [filled, complete, complete_filled rest values, Functor.map, Except.map]

end Fields

namespace Shape

mutual

/-- What the shape writes can be read back, and opens at most `depth` levels. -/
def Fits : {α : Type} → Shape α → (depth : Nat) → Prop
  | _, text, _ | _, flag, _ | _, choice _, _ => True
  | _, integer width, _ => -0x8000000000000000 ≤ width.low ∧ width.high ≤ 0xffffffffffffffff
  | _, any, _ | _, list _, 0 | _, record .., 0 | _, tagged .., 0 => False
  | _, list item, depth + 1 => item.Fits depth
  | _, record _ fields _ _ _ _, depth + 1 => fields.names.Nodup ∧ FieldsFit fields depth
  | _, tagged _ _ body _ _ _, depth + 1 => ∀ k, (body k).Fits depth

def FieldsFit : {β π : Type} → Fields β π → (depth : Nat) → Prop
  | _, _, .nil, _ => True
  | _, _, .cons _ shape rest, depth => shape.Fits depth ∧ FieldsFit rest depth

end

section
variable {α β π κ : Type} {γ : κ → Type} (depth : Nat)

@[simp] theorem names_nil : Fields.nil.names = [] := rfl

@[simp] theorem names_cons (name : String) (shape : Shape α) (rest : Fields β π) :
    (Fields.cons name shape rest).names = name :: rest.names := rfl

@[simp] theorem fieldsFit_nil : FieldsFit .nil depth := trivial

@[simp] theorem fieldsFit_cons (name : String) (shape : Shape α) (rest : Fields β π) :
    FieldsFit (.cons name shape rest) depth ↔ shape.Fits depth ∧ FieldsFit rest depth := .rfl

@[simp] theorem fits_text : text.Fits depth := trivial

@[simp] theorem fits_flag : flag.Fits depth := trivial

@[simp] theorem fits_choice (constants : Naming α) : (choice constants).Fits depth := trivial

@[simp] theorem fits_integer (width : Width α) :
    (integer width).Fits depth ↔ -0x8000000000000000 ≤ width.low ∧ width.high ≤ 0xffffffffffffffff := .rfl

@[simp] theorem fits_list (item : Shape α) : (list item).Fits (depth + 1) ↔ item.Fits depth := .rfl

@[simp] theorem fits_record (title : String) (fields : Fields β π) (make : β → α) (parts : α → β)
    (make_parts : ∀ a, make (parts a) = a) (parts_make : ∀ b, parts (make b) = b) :
    (record title fields make parts make_parts parts_make).Fits (depth + 1) ↔
      fields.names.Nodup ∧ FieldsFit fields depth := .rfl

end

/-! ## What is written -/

mutual

theorem plain_toJson : {α : Type} → (shape : Shape α) → {depth : Nat} → shape.Fits depth → (a : α) →
    Plain depth (shape.toJson a)
  | _, text, _, _, s => .string s
  | _, flag, _, _, b => .bool b
  | _, choice constants, _, _, a => .string (constants.name a)
  | _, integer width, _, h, a => .integer ⟨Int.le_trans h.1 (width.low_le a), Int.le_trans (width.le_high a) h.2⟩
  | _, list item, _ + 1, h, as => by
    refine .array fun j hj => ?_
    obtain ⟨a, -, rfl⟩ := List.mem_map.1 hj
    exact plain_toJson item h a
  | _, record _ fields _ parts _ _, _ + 1, h, a => .object (plain_fieldsToJson fields h.2 (parts a))
  | _, tagged _ kinds body _ split _, _ + 1, h, a => by
    refine .object fun m hm => ?_
    have hvalue := plain_toJson (body (split a).1) (h (split a).1) (split a).2
    rcases List.mem_cons.1 hm with rfl | hm
    · exact .string _
    · rw [List.mem_singleton.1 hm]
      exact hvalue

theorem plain_fieldsToJson : {β π : Type} → (fields : Fields β π) → {depth : Nat} → FieldsFit fields depth → (b : β) →
    ∀ m ∈ fieldsToJson fields b, Plain depth m.2
  | _, _, .nil, _, _, () => nofun
  | _, _, .cons name shape rest, _, h, (value, values) => by
    intro m hm
    rcases List.mem_cons.1 hm with rfl | hm
    · exact plain_toJson shape h.1 value
    · exact plain_fieldsToJson rest h.2 values m hm

end

theorem names_fieldsToJson : {β π : Type} → (fields : Fields β π) → (b : β) →
    (fieldsToJson fields b).map (·.1) = fields.names
  | _, _, .nil, () => rfl
  | _, _, .cons name shape rest, (value, values) => by
    simp [fieldsToJson, Fields.names, names_fieldsToJson rest values]

/-! ## What is read -/

section
variable {α β π : Type} {name : String} (shape : Shape α) (rest : Fields β π) (origin : Origin)

theorem place_of_ne {name' : String} (h : name' ≠ name) (value? : Option α) (values? : π) (j : Json) :
    place (.cons name shape rest) origin (value?, values?) name' j =
      (fun values? => (value?, values?)) <$> place rest origin values? name' j := by
  simp [place, h]

theorem foldlM_place_of_ne {members : List (String × Json)} (h : ∀ m ∈ members, m.1 ≠ name) (value? : Option α)
    (values? : π) :
    members.foldlM (fun values? m => place (.cons name shape rest) origin values? m.1 m.2) (value?, values?) =
      (fun values? => (value?, values?)) <$>
        members.foldlM (fun values? m => place rest origin values? m.1 m.2) values? := by
  induction members generalizing values? with
  | nil => rfl
  | cons m members ih =>
    simp only [List.foldlM_cons, place_of_ne shape rest origin (h m List.mem_cons_self)]
    cases place rest origin values? m.1 m.2 with
    | error e => rfl
    | ok values? => exact ih (fun n hn => h n (List.mem_cons_of_mem m hn)) values?

/-- The member of a field fills its place wherever it stands, and the other
members fill theirs. -/
theorem foldlM_place_cons {before after : List (String × Json)} (hne : ∀ m ∈ before ++ after, m.1 ≠ name) {j : Json}
    {value : α} (hvalue : shape.ofJson origin j = .ok value) {start done : π}
    (hrest : (before ++ after).foldlM (fun values? m => place rest origin values? m.1 m.2) start = .ok done) :
    (before ++ (name, j) :: after).foldlM (fun values? m => place (.cons name shape rest) origin values? m.1 m.2)
      (none, start) = .ok (some value, done) := by
  rw [List.foldlM_append] at hrest ⊢
  rw [foldlM_place_of_ne shape rest origin fun m hm => hne m (List.mem_append_left after hm)]
  cases hbefore : before.foldlM (fun values? m => place rest origin values? m.1 m.2) start with
  | error e =>
    rw [hbefore] at hrest
    cases hrest
  | ok values? =>
    rw [hbefore] at hrest
    have hplace : place (.cons name shape rest) origin (none, values?) name j = .ok (some value, values?) := by
      simp [place, hvalue, bind, Except.bind, pure, Except.pure]
    have hafter := foldlM_place_of_ne shape rest origin (fun m hm => hne m (List.mem_append_right before hm))
      (some value) values?
    simp only [bind, Except.bind] at hrest
    simp only [Functor.map, Except.map, bind, Except.bind, List.foldlM_cons, hplace, hafter, hrest]

end

theorem mapM_sorted {α : Type} {shape : Shape α} {origin : Origin}
    (h : ∀ a, shape.ofJson origin (shape.toJson a).sorted = .ok a) (as : List α) :
    (Json.sortedItems (as.map shape.toJson)).mapM (shape.ofJson origin) = .ok as := by
  induction as with
  | nil => rfl
  | cons a as ih =>
    simp [Json.sortedItems, List.mapM_cons, h a, ih, bind, Except.bind, pure, Except.pure]

mutual

theorem ofJson_sorted : {α : Type} → (shape : Shape α) → {depth : Nat} → shape.Fits depth → (origin : Origin) →
    (a : α) → shape.ofJson origin (shape.toJson a).sorted = .ok a
  | _, text, _, _, _, s => rfl
  | _, flag, _, _, _, b => rfl
  | _, choice constants, _, _, _, a => by
    simp [toJson, Json.sorted, ofJson, ofConstant, ofName]
  | _, integer width, _, _, _, a => by
    simp [toJson, Json.sorted, ofJson, ofNumber, width.low_le, width.le_high, width.ofInt_toInt]
  | _, list item, _ + 1, h, origin, as => by
    simpa [toJson, Json.sorted, ofJson] using mapM_sorted (ofJson_sorted item h origin) as
  | _, record _ fields make parts make_parts _, _ + 1, h, origin, a => by
    have hnames : ((Json.sortedMembers (fieldsToJson fields (parts a))).map (·.1)).Nodup := by
      rw [Json.sortedMembers_eq_map, List.map_map]
      exact (names_fieldsToJson fields (parts a)).symm ▸ h.1
    have hplaces := foldlM_place fields h.2 h.1 origin (parts a) (Json.sortMembers_perm hnames)
    simp [toJson, Json.sorted, ofJson, hplaces, Fields.complete_filled, make_parts, bind, Except.bind, pure,
      Except.pure]
  | _, tagged _ kinds body make split make_split, _ + 1, h, origin, a => by
    have hvalue := ofJson_sorted (body (split a).1) (h (split a).1) origin (split a).2
    have hascending : kindName < valueName := by decide
    have hsorted : ∀ k v, Json.sortMembers [(kindName, k), (valueName, v)] = [(kindName, k), (valueName, v)] :=
      fun k v => Json.sortMembers_of_ascending (List.pairwise_pair.2 hascending)
    have hkind : valueName ≠ kindName := by decide
    simp [toJson, Json.sorted, Json.sortedMembers, hsorted, ofJson, ofConstant, ofName, hkind, hvalue, noneLeft,
      make_split, bind, Except.bind, pure, Except.pure]

theorem foldlM_place : {β π : Type} → (fields : Fields β π) → {depth : Nat} → FieldsFit fields depth →
    fields.names.Nodup → (origin : Origin) → (b : β) → {members : List (String × Json)} →
    members.Perm (Json.sortedMembers (fieldsToJson fields b)) →
    members.foldlM (fun values? m => place fields origin values? m.1 m.2) fields.blank = .ok (fields.filled b)
  | _, _, .nil, _, _, _, _, (), members, hm => by
    rw [hm.eq_nil]
    rfl
  | _, _, .cons name shape rest, _, h, hn, origin, (value, values), members, hm => by
    obtain ⟨hname, hrest⟩ := List.nodup_cons.1 hn
    obtain ⟨before, after, rfl⟩ := List.append_of_mem (hm.mem_iff.2 (List.mem_cons_self))
    have hothers : (before ++ after).Perm (Json.sortedMembers (fieldsToJson rest values)) :=
      (List.perm_middle.symm.trans hm).cons_inv
    have hne : ∀ m ∈ before ++ after, m.1 ≠ name := by
      intro m hm' he
      have hmem : m.1 ∈ (Json.sortedMembers (fieldsToJson rest values)).map (·.1) :=
        List.mem_map_of_mem (hothers.mem_iff.1 hm')
      rw [Json.sortedMembers_eq_map, List.map_map] at hmem
      apply hname
      rw [← names_fieldsToJson rest values, ← he]
      exact hmem
    exact foldlM_place_cons shape rest origin hne (ofJson_sorted shape h.1 origin value)
      (foldlM_place rest h.2 hrest origin values hothers)

end

end Shape

end OrderDesk
