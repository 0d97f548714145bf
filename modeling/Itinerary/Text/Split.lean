/-! Cutting text at a character. -/
namespace Itinerary.Text

/-- What stands before and after the first `mark`. -/
def splitFirst (mark : Char) : List Char → Option (List Char × List Char)
  | [] => none
  | c :: cs =>
    if c = mark then some ([], cs)
    else (splitFirst mark cs).map fun (before, after) => (c :: before, after)

/-- What stands before and after the last `mark`. -/
def splitLast (mark : Char) : List Char → Option (List Char × List Char)
  | [] => none
  | c :: cs =>
    match splitLast mark cs with
    | some (before, after) => some (c :: before, after)
    | none => if c = mark then some ([], cs) else none

/-- The pieces between the marks; one more than there are marks. -/
def pieces (mark : Char) : List Char → List (List Char)
  | [] => [[]]
  | c :: cs =>
    if c = mark then [] :: pieces mark cs
    else
      match pieces mark cs with
      | [] => [[c]]
      | first :: others => (c :: first) :: others

/-- Whether `word` stands somewhere in the text. -/
def holds (word : List Char) : List Char → Bool
  | [] => word.isEmpty
  | c :: cs => (c :: cs).take word.length == word || holds word cs

end Itinerary.Text
