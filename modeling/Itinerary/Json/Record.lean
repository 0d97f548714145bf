import Itinerary.Json.Basic

/-! Reading records, lists and numbers out of JSON values. -/
namespace Itinerary.Json

/-- The members of a record, looked up for a list of keys. `positional` says that the record was
written as a list of its members, in the order of the keys, perhaps without the last ones. -/
structure Record where
  slots : List (Option Json)
  positional : Bool

def lookup (key : String) (members : List (String × Json)) : Option Json :=
  (members.find? (·.1 == key)).map Prod.snd

/-- An object, in which none of the keys may stand twice and any others are passed over. -/
def object? (keys : List String) : Json → Option Record
  | .obj members =>
    if keys.all fun key => (members.filter (·.1 == key)).length ≤ 1 then
      some ⟨keys.map (lookup · members), false⟩
    else none
  | _ => none

/-- An object, or a list of no more members than there are keys. -/
def record? (keys : List String) : Json → Option Record
  | .arr items =>
    if items.length ≤ keys.length then
      some ⟨(items.map some) ++ List.replicate (keys.length - items.length) none, true⟩
    else none
  | j => j.object? keys

namespace Record

def slot (r : Record) (i : Nat) : Option Json := (r.slots[i]?).join

def required {α : Type} (r : Record) (i : Nat) (read : Json → Option α) : Option α :=
  (r.slot i).bind read

/-- A missing member has this value; a null is not a missing member. -/
def defaulted {α : Type} (r : Record) (i : Nat) (missing : α) (read : Json → Option α) : Option α :=
  match r.slot i with
  | some j => read j
  | none => some missing

/-- Missing and null both mean that there is none. -/
def optional {α : Type} (r : Record) (i : Nat) (read : Json → Option α) : Option (Option α) :=
  match r.slot i with
  | none | some .null => some none
  | some j => (read j).map some

/-- As `optional`, but a list of members has to reach this one. -/
def nullable {α : Type} (r : Record) (i : Nat) (read : Json → Option α) : Option (Option α) :=
  if r.positional && (r.slot i).isNone then none else r.optional i read

end Record

def bool? : Json → Option Bool
  | .bool b => some b
  | _ => none

def str? : Json → Option String
  | .str s => some s
  | _ => none

def float? : Json → Option Float
  | .int n => some (Float.ofInt n)
  | .float x => some x
  | _ => none

/-- A count below `bound`. -/
def count? (bound : Nat) : Json → Option Nat
  | .int n => if 0 ≤ n ∧ n < bound then some n.toNat else none
  | _ => none

def uint32? (j : Json) : Option UInt32 := (j.count? UInt32.size).map UInt32.ofNat

def uint64? (j : Json) : Option UInt64 := (j.count? UInt64.size).map UInt64.ofNat

def list? {α : Type} (read : Json → Option α) : Json → Option (List α)
  | .arr items => items.mapM read
  | _ => none

/-- An object as a map from its keys, the last of equal keys only. -/
def map? {α : Type} (read : Json → Option α) : Json → Option (List (String × α))
  | .obj members =>
    (members.mapM fun m => (read m.2).map fun a => (m.1, a)).map sortMembers
  | _ => none

/-- One of a set of names, as text or as the only key of an object whose value is null. -/
def name? : Json → Option String
  | .str s => some s
  | .obj [(k, .null)] => some k
  | _ => none

end Itinerary.Json
