import Itinerary.Link.Setting
import Itinerary.Route
import Itinerary.Url.Basic

/-! Links that carry all that is needed to show a journey again. -/
namespace Itinerary

/-- The stops' texts and the options. Whether the map follows the result, and the token that tells
otherwise equal entries apart, go with the link but are not written in it. -/
structure Link where
  points : List String
  options : Options
  zoom : Bool
  token : Option Nat

namespace Link

/-- The journey as it stands: stops with a coordinate by it, others as typed. -/
def capture (route : Route) (options : Options) (zoom : Bool) : Link where
  points := route.toList.map fun s =>
    match s.coordinate with
    | some c => c.literal
    | none => s.input
  options := options
  zoom := zoom
  token := none

def nonBlankPoints (l : Link) : Nat := l.points.countP fun p => !Text.allBlank p

def alternativeSettings (a : Alternatives) : List Setting :=
  [.maxPaths a.maxPaths, .maxWeightFactor a.maxWeightFactor, .maxShareFactor a.maxShareFactor]

def transitSettings (t : TransitOptions) : List Setting :=
  t.departure.toList.map .departure ++
  [.arriveBy t.arriveBy, .limitSolutions t.limitSolutions,
    .maxProfileDuration t.maxProfileDuration, .limitStreetSeconds t.limitStreetSeconds,
    .usePareto t.usePareto, .betaTransfers t.betaTransfers, .accessMode t.accessMode,
    .egressMode t.egressMode, .betaAccessTime t.betaAccessTime,
    .betaEgressTime t.betaEgressTime, .maxVisitedNodes t.maxVisitedNodes]

/-- The settings that are written. Those of the other kind of profile are left out when they are
the default ones. -/
def settings (l : Link) : List Setting :=
  let o := l.options
  let transit : Bool := o.profile == .publicTransit
  l.points.map .point ++
  [.profile o.profile, .units o.units, .elevation o.elevation, .debug o.debug] ++
  (if !transit || o.alternatives != {} then alternativeSettings o.alternatives else []) ++
  (if transit || o.transit != {} then transitSettings o.transit else []) ++
  o.customModel.toList.map .customModel

/-- The query of the link. -/
def toQuery (l : Link) : String := String.ofList (Url.Form.encode (l.settings.map Setting.pair))

/-- What has been read of a link. -/
structure Draft where
  points : List String := []
  profile : Option Profile := none
  vehicle : Option String := none
  options : Options := {}

namespace Draft

def withAlternatives (d : Draft) (f : Alternatives → Alternatives) : Draft :=
  { d with options := { d.options with alternatives := f d.options.alternatives } }

def withTransit (d : Draft) (f : TransitOptions → TransitOptions) : Draft :=
  { d with options := { d.options with transit := f d.options.transit } }

/-- Points add up; of every other setting the last one counts. -/
def set (d : Draft) : Setting → Draft
  | .point text => { d with points := d.points ++ [text] }
  | .profile p => { d with profile := some p }
  | .units u => { d with options := { d.options with units := u } }
  | .elevation b => { d with options := { d.options with elevation := b } }
  | .debug b => { d with options := { d.options with debug := b } }
  | .maxPaths n => d.withAlternatives ({ · with maxPaths := n })
  | .maxWeightFactor x => d.withAlternatives ({ · with maxWeightFactor := x })
  | .maxShareFactor x => d.withAlternatives ({ · with maxShareFactor := x })
  | .departure t => d.withTransit ({ · with departure := some t })
  | .arriveBy b => d.withTransit ({ · with arriveBy := b })
  | .limitSolutions n => d.withTransit ({ · with limitSolutions := n })
  | .maxProfileDuration n => d.withTransit ({ · with maxProfileDuration := n })
  | .limitStreetSeconds n => d.withTransit ({ · with limitStreetSeconds := n })
  | .usePareto b => d.withTransit ({ · with usePareto := b })
  | .betaTransfers x => d.withTransit ({ · with betaTransfers := x })
  | .accessMode mode => d.withTransit ({ · with accessMode := mode })
  | .egressMode mode => d.withTransit ({ · with egressMode := mode })
  | .betaAccessTime x => d.withTransit ({ · with betaAccessTime := x })
  | .betaEgressTime x => d.withTransit ({ · with betaEgressTime := x })
  | .maxVisitedNodes n => d.withTransit ({ · with maxVisitedNodes := n })
  | .customModel text => { d with options := { d.options with customModel := some text } }
  | .vehicle name => { d with vehicle := some name }

/-- Without a profile the default one holds, unless the link is of the kind that names a vehicle
instead. -/
def finish (d : Draft) (defaultProfile : Profile) : Except LinkError Link :=
  match d.profile, d.vehicle with
  | some p, _ => .ok ⟨d.points, { d.options with profile := p }, true, none⟩
  | none, some vehicle => .error (.legacyProfile vehicle)
  | none, none => .ok ⟨d.points, { d.options with profile := defaultProfile }, true, none⟩

end Draft

def ofPairs (pairs : List Url.Form.Pair) (defaultProfile : Profile) : Except LinkError Link := do
  let settings ← pairs.mapM Setting.ofPair
  ((settings.filterMap id).foldl Draft.set {}).finish defaultProfile

/-- Where a bare query is taken to belong. -/
def base : String := "http://localhost/"

/-- The address that a text stands for: a whole URL, or the query of one with or without its
question mark. -/
def address (text : String) : String :=
  if Text.holds [':', '/', '/'] text.toList then text
  else base ++ "?" ++ String.ofList (text.toList.dropWhile (· == '?'))

def ofText (text : String) (defaultProfile : Profile) : Except LinkError Link :=
  match Url.parse (address text) with
  | .ok url => ofPairs url.pairs defaultProfile
  | .error e => .error (.invalidUrl e.message)

end Link
end Itinerary
