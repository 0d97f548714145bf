import Itinerary.Route

/-! Lookups of stops: when one is due, and whether its answer still counts. -/
namespace Itinerary

/-- A lookup under way for one revision of a stop's text. -/
structure Lookup where
  stop : StopId
  query : String
  revision : Nat
deriving DecidableEq, Repr

/-- What resolving a stop came to. -/
inductive ResolveOutcome where
  | immediate
  | alreadyResolved
  | alreadyPending
  | blank
  | issued (lookup : Lookup)
deriving DecidableEq, Repr

def ResolveOutcome.lookup? : ResolveOutcome → Option Lookup
  | .issued l => some l
  | _ => none

/-- What an answer came to: it is applied, with the status it left, or too late. -/
inductive Completion where
  | applied (status : Status)
  | stale
deriving DecidableEq, Repr

/-- How many lookups were issued, and how many answers were applied or discarded. -/
structure LookupStats where
  issued : Nat := 0
  applied : Nat := 0
  discarded : Nat := 0
deriving DecidableEq, Repr

namespace LookupStats

def countIssued (t : LookupStats) : ResolveOutcome → LookupStats
  | .issued _ => { t with issued := t.issued + 1 }
  | _ => t

def countAnswer (t : LookupStats) : Completion → LookupStats
  | .applied _ => { t with applied := t.applied + 1 }
  | .stale => { t with discarded := t.discarded + 1 }

end LookupStats

namespace Stop

def lookup (s : Stop) : Lookup := ⟨s.id, Text.trimmed s.input, s.revision⟩

/-- A stop needs a lookup if it has text that is no literal and neither is resolved nor being
looked up; a failed lookup is repeated. -/
def resolve (s : Stop) : ResolveOutcome :=
  if s.isLiteral then .immediate
  else
    match s.status with
    | .resolved => .alreadyResolved
    | .pending => .alreadyPending
    | .unresolved | .failed => if s.isBlank then .blank else .issued s.lookup

/-- The answer to this lookup is still waited for. -/
def awaits (s : Stop) (l : Lookup) : Bool := s.revision == l.revision && s.status == .pending

end Stop

namespace Route

/-- Resolves the stop kept under this identity, which is pending from then on if a lookup was issued. -/
def resolve (r : Route) (id : StopId) : Except RouteError (ResolveOutcome × Route) :=
  match r.find? id with
  | none => .error (.unknownStop id)
  | some s =>
    match s.resolve with
    | .issued l => .ok (.issued { l with stop := id }, r.modify id Stop.markPending)
    | outcome => .ok (outcome, r)

def resolveAt (r : Route) (index : Nat) : Except RouteError (ResolveOutcome × Route) :=
  match r.order[index]? with
  | some id => r.resolve id
  | none => .error (.indexOutOfBounds index r.length)

/-- Resolves the stops with these identities one after the other; identities without a stop are
passed over. -/
def resolveEach (r : Route) : List StopId → List ResolveOutcome × Route
  | [] => ([], r)
  | id :: ids =>
    match r.resolve id with
    | .ok (outcome, r) =>
      let (outcomes, r) := r.resolveEach ids
      (outcome :: outcomes, r)
    | .error _ => r.resolveEach ids

def resolveAll (r : Route) : List ResolveOutcome × Route := r.resolveEach r.order

/-- Applies an answer if its stop is still there and waits for it; otherwise nothing changes. -/
def complete (r : Route) (l : Lookup) (result : LookupResult) : Completion × Route :=
  match r.find? l.stop with
  | none => (.stale, r)
  | some s =>
    if s.awaits l then
      (.applied (s.resolveWith result).status, r.modify l.stop (·.resolveWith result))
    else (.stale, r)

end Route
end Itinerary
