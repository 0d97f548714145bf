import Itinerary.CustomModel
import Itinerary.Session.Edit
import Itinerary.Session.Navigation
import Itinerary.Session.Run
import Itinerary.Service.Geocoding
import Itinerary.Service.Routing
import Itinerary.Proofs.Route.Change
import Itinerary.Proofs.Route.Operations
import Itinerary.Proofs.Session.Event
import Itinerary.Proofs.Session.Steps
import Itinerary.Proofs.Session.EditCases
import Itinerary.Proofs.Session.Evaluation
import Itinerary.Proofs.Session.Readiness
import Itinerary.Proofs.Session.Turn
import Itinerary.Proofs.Session.Acceptance
import Itinerary.Proofs.Route.Tracking
import Itinerary.Proofs.Session.Deliveries
import Itinerary.Proofs.Session.Provenance
import Itinerary.Proofs.Session.Balance
import Itinerary.Proofs.Session.Confluence
import Itinerary.Proofs.Session.Coherence
import Itinerary.Proofs.Session.InFlight
import Itinerary.Proofs.Session.Replies
import Itinerary.Proofs.Route.Sync
import Itinerary.Proofs.Route.Asked
import Itinerary.Proofs.Session.Steering
import Itinerary.Proofs.Text.Runs
import Itinerary.Proofs.Text.Digits
import Itinerary.Proofs.Text.Words
import Itinerary.Proofs.Text.Utf8
import Itinerary.Proofs.Decimal.Fields
import Itinerary.Proofs.Decimal.Rounding
import Itinerary.Proofs.Decimal.Reading
import Itinerary.Proofs.Decimal.Literal
import Itinerary.Proofs.Coordinate
import Itinerary.Proofs.Session.Refusal
import Itinerary.Proofs.Session.Markers
import Itinerary.Proofs.Session.Attended
import Itinerary.Proofs.Session.Arrival
import Itinerary.Proofs.Session.Mirror
import Itinerary.Proofs.Session.Replay
import Itinerary.Proofs.Json.Text
import Itinerary.Proofs.Json.Number
import Itinerary.Proofs.Json.Rendered
import Itinerary.Proofs.Json.Reread
import Itinerary.Proofs.Json.Record
import Itinerary.Proofs.Geometry
import Itinerary.Proofs.Response.RoundTrip
import Itinerary.Proofs.Polyline.Varint
import Itinerary.Proofs.Polyline.Encoded
import Itinerary.Proofs.Url.Form
import Itinerary.Proofs.Url.Query
import Itinerary.Proofs.Instant.Calendar
import Itinerary.Proofs.Instant.Reading
import Itinerary.Proofs.Instant.Lenient
import Itinerary.Proofs.Profile
import Itinerary.Proofs.Options
import Itinerary.Proofs.Link.Setting
import Itinerary.Proofs.Link.Reread
import Itinerary.Proofs.Link.RoundTrip
import Itinerary.Proofs.Session.Pinned
import Itinerary.Proofs.Session.Zoom
import Itinerary.Proofs.Session.Rejection
import Itinerary.Proofs.Session.Focus
import Itinerary.Proofs.Session.Via
import Itinerary.Proofs.Polyline.Grammar
import Itinerary.Proofs.Polyline.Sums
import Itinerary.Proofs.Instant.Zone
import Itinerary.Proofs.Link.Accepted
import Itinerary.Proofs.Link.Pairs
import Itinerary.Proofs.Link.Address
import Itinerary.Proofs.Link.Keys
import Itinerary.Proofs.Geodesy.Matching
import Itinerary.Proofs.Route.Keyed
import Itinerary.Proofs.Route.Needed
import Itinerary.Proofs.Session.Reading
import Itinerary.Proofs.Session.Queues
import Itinerary.Proofs.Session.Calls
import Itinerary.Proofs.Session.Stages
import Itinerary.Proofs.Session.Quiescence
import Itinerary.Proofs.Route.Moving
import Itinerary.Proofs.Session.OwnPlace
import Itinerary.Proofs.Session.Tally
import Itinerary.Proofs.Response.Joins
import Itinerary.Proofs.Polyline.Wkt
import Itinerary.Proofs.Geometry.LineString
import Itinerary.Proofs.Geometry.Keyword
import Itinerary.Proofs.Url.Target
import Itinerary.Proofs.Service.Transit
import Itinerary.Proofs.Json.Exact
import Itinerary.Proofs.Service.Street
import Itinerary.Proofs.Polyline.Bits
import Itinerary.Proofs.Polyline.Position
import Itinerary.Proofs.Json.Shape
import Itinerary.Proofs.Service.Told
import Itinerary.Proofs.Service.Places
