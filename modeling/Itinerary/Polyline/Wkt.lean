import Itinerary.Polyline.Basic

/-! Line strings in well-known text. -/
namespace Itinerary.Polyline

def wktKeyword : List Char := ['L', 'I', 'N', 'E', 'S', 'T', 'R', 'I', 'N', 'G']

private def invalidWkt {α : Type} (reason : String) : Except GeometryError α :=
  .error (.invalidWkt reason)

/-- One vertex: numbers with blanks between. -/
def wktVertex (text : List Char) : Except GeometryError (List Float) :=
  match (Text.words text).mapM Decimal.readFloat with
  | none => invalidWkt "invalid float literal"
  | some numbers =>
    if numbers.length < 2 then invalidWkt "vertex needs at least two values" else .ok numbers

/-- What stands between the first opening and the last closing parenthesis. -/
def wktBody (text : List Char) : Except GeometryError (List Char) :=
  match Text.splitFirst '(' text with
  | none => invalidWkt "missing '('"
  | some (before, after) =>
    match Text.splitLast ')' after with
    | some (body, _) => .ok body
    | none =>
      if before.contains ')' then invalidWkt "unbalanced parentheses" else invalidWkt "missing ')'"

/-- A text `LINESTRING (lng lat, …)`, each vertex perhaps with a third number. -/
def ofWkt (text : String) : Except GeometryError Polyline := do
  let text := Text.trim text.toList
  if Text.startsWithIgnoringCase wktKeyword text then
    let body := Text.trim (← wktBody text)
    if body.isEmpty then return {}
    return ofLngLat (← (Text.pieces ',' body).mapM wktVertex)
  else invalidWkt "not a LINESTRING"

end Itinerary.Polyline
