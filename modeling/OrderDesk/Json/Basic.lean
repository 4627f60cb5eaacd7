import OrderDesk.Text.Binary64

/-!
# JSON values

Untyped values. An integer literal that fits in 64 bits, signed or unsigned,
is an integer; any other number is a double. `Json.sorted` puts the members of
every object in the order of their names, where a later member of the same
name replaces an earlier one.
-/

namespace OrderDesk

inductive Number
  | integer (n : Int)
  | float (negative : Bool) (magnitude : Binary64)
  deriving DecidableEq, Repr

inductive Json
  | null
  | bool (b : Bool)
  | number (n : Number)
  | string (s : String)
  | array (items : List Json)
  | object (members : List (String × Json))
  deriving BEq, Repr, Inhabited

namespace Json

def insertMember (name : String) (value : Json) : List (String × Json) → List (String × Json)
  | [] => [(name, value)]
  | (name', value') :: members =>
    if name < name' then (name, value) :: (name', value') :: members
    else if name = name' then (name, value) :: members
    else (name', value') :: insertMember name value members

/-- The members ascending by name, the last of each name. -/
def sortMembers (members : List (String × Json)) : List (String × Json) :=
  members.foldl (fun sorted m => insertMember m.1 m.2 sorted) []

mutual

def sorted : Json → Json
  | .array items => .array (sortedItems items)
  | .object members => .object (sortMembers (sortedMembers members))
  | j => j
termination_by structural j => j

def sortedItems : List Json → List Json
  | [] => []
  | j :: js => j.sorted :: sortedItems js
termination_by structural js => js

def sortedMembers : List (String × Json) → List (String × Json)
  | [] => []
  | (name, j) :: members => (name, j.sorted) :: sortedMembers members
termination_by structural members => members

end

end Json

end OrderDesk
