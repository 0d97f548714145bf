import Itinerary.Json.Record
import Itinerary.Text.Blank

/-! Named routing modes. -/
namespace Itinerary

inductive Profile where
  | car
  | foot
  | bike
  | truck
  | smallTruck
  | publicTransit
  | custom (name : String)
deriving DecidableEq, Repr

namespace Profile

def name : Profile → String
  | .car => "car"
  | .foot => "foot"
  | .bike => "bike"
  | .truck => "truck"
  | .smallTruck => "small_truck"
  | .publicTransit => "pt"
  | .custom name => name

/-- Known names in any case; every other text names a custom profile, blank text none. -/
def ofName? (text : String) : Option Profile :=
  let name := Text.trimmed text
  match name.toLower with
  | "" => none
  | "car" => some .car
  | "foot" => some .foot
  | "bike" => some .bike
  | "truck" => some .truck
  | "small_truck" => some .smallTruck
  | "pt" => some .publicTransit
  | _ => some (.custom name)

def blankNameMessage : String := "empty profile name"

def toJson (p : Profile) : Json := .str p.name

def ofJson? (j : Json) : Option Profile := j.str?.bind ofName?

end Profile

inductive UnitSystem where
  | metric
  | imperial
deriving DecidableEq, Repr

namespace UnitSystem

def ofUseMiles (useMiles : Bool) : UnitSystem := if useMiles then .imperial else .metric

def useMiles : UnitSystem → Bool
  | .metric => false
  | .imperial => true

def toJson : UnitSystem → Json
  | .metric => .str "metric"
  | .imperial => .str "imperial"

def ofJson? (j : Json) : Option UnitSystem :=
  match j.name? with
  | some "metric" => some .metric
  | some "imperial" => some .imperial
  | _ => none

end UnitSystem
end Itinerary
