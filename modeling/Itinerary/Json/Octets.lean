import Itinerary.Json.Parser
import Itinerary.Text.Utf8

/-! JSON text that comes as octets, not all of which may be UTF-8. -/
namespace Itinerary.Json

/-- Where a reader of JSON text stands: outside of strings, in one, or behind a backslash in one. -/
inductive Quoted where
  | no
  | yes
  | escaped

/-- Where it stands behind a character. -/
def Quoted.next : Quoted → Char → Quoted
  | .no, c => if c = '"' then .yes else .no
  | .yes, c => if c = '"' then .no else if c = '\\' then .escaped else .yes
  | .escaped, _ => .yes

/-- Half of a surrogate pair, apart from what stands before it. -/
def halfPair : List Char := [' ', '\\', 'u', 'd', 'c', '0', '0']

/-- The characters of JSON text. What is not UTF-8 may only be in strings, which stand for no text then;
so it is spelled as half a surrogate pair is. -/
def spelled (q : Quoted) : List (Option Char) → Option (List Char)
  | [] => some []
  | some c :: cs => (spelled (q.next c) cs).map (c :: ·)
  | none :: cs =>
    match q with
    | .yes => (spelled .yes cs).map (halfPair ++ ·)
    | _ => none

/-- The value of a whole text in octets, with what is unusable left in place. -/
def readOctets (octets : List UInt8) : Option Json :=
  (spelled .no (Text.Utf8.pieces octets)).bind fun cs => read (String.ofList cs)

end Itinerary.Json
