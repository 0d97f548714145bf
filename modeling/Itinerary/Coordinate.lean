import Itinerary.Decimal.Layout
import Itinerary.Decimal.Reader
import Itinerary.Text.Split

/-! WGS84 coordinates in degrees and their literal form. -/
namespace Itinerary

structure Coordinate where
  lat : Float
  lng : Float
deriving BEq

namespace Coordinate

/-- Latitude within a quarter turn, longitude within a half turn. -/
def inRange (c : Coordinate) : Bool :=
  c.lat.isFinite && c.lng.isFinite && decide (-90 ≤ c.lat) && decide (c.lat ≤ 90) &&
    decide (-180 ≤ c.lng) && decide (c.lng ≤ 180)

/-- A literal is two numbers with a comma between, blanks around either, both in range. -/
def parse? (text : String) : Option Coordinate := do
  let (lat, lng) ← Text.splitFirst ',' text.toList
  let c : Coordinate := ⟨← Decimal.readFloat (Text.trim lat), ← Decimal.readFloat (Text.trim lng)⟩
  if c.inRange then some c else none

def literal (c : Coordinate) : String := Decimal.plain c.lat ++ "," ++ Decimal.plain c.lng

end Coordinate
end Itinerary
