/-! JSON values. -/
namespace Itinerary

/-- Whole numbers that fit 64 bits stay whole. `unusable` is a value that is well formed but stands
for nothing: a number beyond all doubles, or text with half a surrogate pair in it. -/
inductive Json where
  | null
  | bool (b : Bool)
  | int (n : Int)
  | float (x : Float)
  | str (s : String)
  | arr (items : List Json)
  | obj (members : List (String × Json))
  | unusable
deriving Inhabited

namespace Json

/-- Infinities and no number have no numeral; they are written as null. -/
def ofFloat (x : Float) : Json := if x.isFinite then .float x else .null

def ofOption {α : Type} (f : α → Json) : Option α → Json
  | some a => f a
  | none => .null

/-- The member is left out if there is no value. -/
def member? {α : Type} (key : String) (f : α → Json) : Option α → List (String × Json)
  | some a => [(key, f a)]
  | none => []

/-- Puts a member in its place among members in ascending order of keys; the last of equal keys
wins. -/
def insertSorted {α : Type} (key : String) (value : α) : List (String × α) → List (String × α)
  | [] => [(key, value)]
  | (k, v) :: rest =>
    if key < k then (key, value) :: (k, v) :: rest
    else if key = k then (key, value) :: rest
    else (k, v) :: insertSorted key value rest

/-- Members in ascending order of keys, the last of equal keys only. -/
def sortMembers {α : Type} (members : List (String × α)) : List (String × α) :=
  members.foldl (fun sorted (k, v) => insertSorted k v sorted) []

mutual

/-- The value with every object's members sorted, if it is usable throughout and its lists and
objects nest no deeper than `room`. -/
def usable? (room : Nat) : Json → Option Json
  | .null => some .null
  | .bool b => some (.bool b)
  | .int n => some (.int n)
  | .float x => some (.float x)
  | .str s => some (.str s)
  | .arr items =>
    match room with
    | 0 => none
    | room + 1 => (usableItems? room items).map .arr
  | .obj members =>
    match room with
    | 0 => none
    | room + 1 => (usableMembers? room members).map fun ms => .obj (sortMembers ms)
  | .unusable => none

def usableItems? (room : Nat) : List Json → Option (List Json)
  | [] => some []
  | j :: js => do return (← usable? room j) :: (← usableItems? room js)

def usableMembers? (room : Nat) : List (String × Json) → Option (List (String × Json))
  | [] => some []
  | (k, j) :: ms => do return (k, ← usable? room j) :: (← usableMembers? room ms)

end

end Json
end Itinerary
