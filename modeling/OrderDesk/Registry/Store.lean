import OrderDesk.Registry.Index

/-!
# Stores

Values filed under ids, each value under one id and each id for one value, in
slots that keep the order in which the ids came in. A store is an index whose
records agree; `toList` is the list of pairs that they agree on, and every
operation is a function on that list.
-/

namespace OrderDesk

structure Store (α : Type) [DecidableEq α] [Hashable α] where
  index : Index α
  consistent : ∃ l, index.Represents l

namespace Store

variable {α : Type} [DecidableEq α] [Hashable α]

def empty : Store α := ⟨.empty, [], Index.represents_empty⟩

/-! ## Looking up -/

def toList (s : Store α) : List (String × α) := s.index.entries

def size (s : Store α) : Nat := s.index.byId.size

def get? (s : Store α) (id : String) : Option α := s.index.byId[id]?

def slot? (s : Store α) (i : Nat) : Option α := (s.index.slots[i]?).bind s.get?

def slotOf? (s : Store α) (id : String) : Option Nat := s.index.raw[id]?

def idOf? (s : Store α) (a : α) : Option String := s.index.byValue[a]?

def indexOf? (s : Store α) (a : α) : Option Nat := (s.idOf? a).bind s.slotOf?

def values (s : Store α) : List α := s.index.snapshot

/-! ## Changing -/

def erase (s : Store α) (id : String) : Store α where
  index := s.index.erase id
  consistent := s.consistent.elim fun _ h => ⟨_, h.erase id⟩

/-- Files a value under an id. A value that is filed under another id loses
that id first. -/
def insert (s : Store α) (id : String) (a : α) : Store α where
  index := s.index.insert id a
  consistent := s.consistent.elim fun _ h => ⟨_, h.insert id a⟩

/-! ## The list of a store -/

theorem represents (s : Store α) : s.index.Represents s.toList := by
  obtain ⟨l, h⟩ := s.consistent
  rw [toList, h.entries_eq]
  exact h

theorem toList_eq (s : Store α) {l : List (String × α)} (h : s.index.Represents l) : s.toList = l := h.entries_eq

theorem distinct (s : Store α) : Entries.Distinct s.toList := s.represents.distinct

@[simp] theorem toList_empty : (empty : Store α).toList = [] := rfl

@[simp] theorem toList_erase (s : Store α) (id : String) : (s.erase id).toList = Entries.remove id s.toList :=
  toList_eq _ (s.represents.erase id)

@[simp] theorem toList_insert (s : Store α) (id : String) (a : α) :
    (s.insert id a).toList = Entries.file id a s.toList :=
  toList_eq _ (s.represents.insert id a)

theorem values_eq (s : Store α) : s.values = Entries.values s.toList := s.represents.snapshot_eq

theorem size_eq (s : Store α) : s.size = s.toList.length := s.represents.size

theorem get?_eq_some_iff (s : Store α) {id : String} {a : α} : s.get? id = some a ↔ (id, a) ∈ s.toList :=
  s.represents.byId id a

theorem idOf?_eq_some_iff (s : Store α) {id : String} {a : α} : s.idOf? a = some id ↔ (id, a) ∈ s.toList :=
  s.represents.byValue a id

theorem slotOf?_eq_some_iff (s : Store α) {id : String} {i : Nat} :
    s.slotOf? id = some i ↔ (Entries.ids s.toList)[i]? = some id :=
  s.represents.raw id i

theorem slot?_eq (s : Store α) (i : Nat) : s.slot? i = (Entries.values s.toList)[i]? := by
  rw [slot?, ← Array.getElem?_toList, s.represents.slots, Entries.ids, Entries.values, List.getElem?_map,
    List.getElem?_map]
  cases hi : s.toList[i]? with
  | none => rfl
  | some p => exact s.get?_eq_some_iff.2 (List.mem_of_getElem? hi)

theorem indexOf?_eq_some_iff (s : Store α) {a : α} {i : Nat} :
    s.indexOf? a = some i ↔ (Entries.values s.toList)[i]? = some a := by
  rw [indexOf?, Option.bind_eq_some_iff, Entries.values, List.getElem?_map, Option.map_eq_some_iff]
  constructor
  · rintro ⟨id, hid, hi⟩
    rw [slotOf?_eq_some_iff, Entries.ids, List.getElem?_map, Option.map_eq_some_iff] at hi
    obtain ⟨p, hp, rfl⟩ := hi
    have := s.distinct.eq_of_id (List.mem_of_getElem? hp) (s.idOf?_eq_some_iff.1 hid) rfl
    exact ⟨p, hp, congrArg (·.2) this⟩
  · rintro ⟨p, hp, rfl⟩
    refine ⟨p.1, s.idOf?_eq_some_iff.2 (List.mem_of_getElem? hp), s.slotOf?_eq_some_iff.2 ?_⟩
    rw [Entries.ids, List.getElem?_map, hp]
    rfl

end Store

end OrderDesk
