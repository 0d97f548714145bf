import Itinerary.Json.Parser
import Itinerary.Text.Blank

/-! Custom models: routing rules that a user writes as a JSON object. -/
namespace Itinerary.CustomModel

/-- Why a text is no custom model. -/
inductive Fault where
  | tooShort
  | syntaxError (e : Json.SyntaxError)
  | notObject
deriving DecidableEq, Repr

def Fault.message : Fault → String
  | .tooShort => "routing configuration too short"
  | .syntaxError e => e.message
  | .notObject => "expected a JSON object"

/-- The shortest text worth parsing, in UTF-8 octets. -/
def minLength : Nat := 5

/-- The object that the text between the blanks around it stands for, its members sorted. -/
def parse (text : String) : Except Fault Json :=
  let text := Text.trimmed text
  if text.utf8ByteSize < minLength then .error .tooShort
  else
    match Json.parse .strict text with
    | .error e => .error (.syntaxError e)
    | .ok j =>
      match j.usable? Json.Parser.maxDepth with
      | some (.obj members) => .ok (.obj members)
      | _ => .error .notObject

end Itinerary.CustomModel
