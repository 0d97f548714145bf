import Itinerary.Json.Octets
import Itinerary.Response.Path
import Itinerary.Service.Http

/-! A geocoding service: free text in, candidates out. -/
namespace Itinerary

/-- At most `limit` candidates are asked for, within the bounds if there are any. -/
structure GeocodingService where
  baseUrl : String := "https://nominatim.openstreetmap.org"
  timeoutSeconds : Nat := 10
  limit : UInt32 := 5
  bounds : Option Bounds := none
  userAgent : String := "waypoint-router/0.1.0"

namespace GeocodingService

/-- The defaults, with the address that the environment says instead. -/
def ofEnvironment (setting : String → Option String) : GeocodingService where
  baseUrl := (setting "NOMINATIM_URL").getD ({} : GeocodingService).baseUrl

def endpoint (s : GeocodingService) : Except UrlError Url := Url.below s.baseUrl "search"

/-- A request names its sender in one line of text. -/
def hasValidUserAgent (s : GeocodingService) : Bool :=
  s.userAgent.toList.all fun c => c == '\t' || (0x20 ≤ c.toNat && c.toNat != 0x7F)

/-- West, north, east and south. -/
def viewbox (b : Bounds) : String :=
  ",".intercalate ([b.minLng, b.maxLat, b.maxLng, b.minLat].map Decimal.plain)

def searchPairs (s : GeocodingService) (text : String) : List Url.Form.Pair :=
  [("q", text), ("format", "json"), ("limit", Url.Form.count s.limit)] ++
  match s.bounds with
  | some b => [("viewbox", viewbox b), ("bounded", "1")]
  | none => []

def request (s : GeocodingService) (endpoint : Url) (text : String) : HttpRequest :=
  { method := .get, target := (endpoint.appendPairs (s.searchPairs text)).target }

/-- A place as the service describes it, its coordinates as text. -/
structure Place where
  lat : String
  lon : String
  name : String

namespace Place

def ofJson? (j : Json) : Option Place := do
  let r ← j.record? ["lat", "lon", "display_name"]
  return ⟨← r.required 0 Json.str?, ← r.required 1 Json.str?, ← r.defaulted 2 "" Json.str?⟩

/-- Places whose coordinates are no numbers are none. -/
def candidate? (p : Place) : Option Candidate := do
  return ⟨← Decimal.readFloat (Text.trim p.lat.toList),
    ← Decimal.readFloat (Text.trim p.lon.toList), p.name⟩

end Place

/-- What a reply means: it has to come with a list of places, and not as an error. Octets of the body
that are not UTF-8 do no harm in a string that is passed over. -/
def result : Reply (List UInt8) → LookupResult
  | .failed reason => .error (.transport reason)
  | .answered status body =>
    if 400 ≤ status ∧ status < 600 then .error (.transport "the service refused the request")
    else
      match (Json.readOctets body).bind (Json.list? Place.ofJson?) with
      | some places => .ok (places.filterMap Place.candidate?)
      | none => .error (.transport "unreadable answer")

end GeocodingService
end Itinerary
