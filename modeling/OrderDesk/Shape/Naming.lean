/-!
# Named constants

The constants of a type in declared order, each under a name of its own, so
that a name says at most one constant.
-/

namespace OrderDesk

structure Naming (α : Type) where
  cases : List α
  name : α → String
  mem_cases : ∀ a, a ∈ cases
  name_injective : ∀ a b, name a = name b → a = b

namespace Naming

variable {α : Type} (n : Naming α)

def names : List String := n.cases.map n.name

def find? (s : String) : Option α := n.cases.find? (n.name · = s)

theorem find?_eq_some_iff (s : String) (a : α) : n.find? s = some a ↔ n.name a = s := by
  constructor
  · intro h
    simpa using List.find?_some h
  · intro h
    cases hf : n.find? s with
    | none => exact absurd h (by simpa using List.find?_eq_none.mp hf a (n.mem_cases a))
    | some b => rw [n.name_injective b a ((by simpa using List.find?_some hf : n.name b = s).trans h.symm)]

@[simp] theorem find?_name (a : α) : n.find? (n.name a) = some a := (n.find?_eq_some_iff _ a).mpr rfl

end Naming

end OrderDesk
