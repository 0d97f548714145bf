import Itinerary.Text.Split
import Itinerary.Url.Percent

/-! Pairs of names and values in the form of a URL query. -/
namespace Itinerary.Url.Form

abbrev Pair := String × String

/-- How yes and no are written. -/
def flag (b : Bool) : String := if b then "true" else "false"

def count (n : UInt32) : String := String.ofList (Nat.toDigits 10 n.toNat)

/-- Octets that stand for themselves. -/
def isPlain (b : UInt8) : Bool :=
  (48 ≤ b && b ≤ 57) || (65 ≤ b && b ≤ 90) || (97 ≤ b && b ≤ 122) ||
    b == 42 || b == 45 || b == 46 || b == 95

def encodeOctet (b : UInt8) : List Char :=
  if isPlain b then [Char.ofNat b.toNat] else if b = 32 then ['+'] else escape b

def encodeText (s : String) : List Char := (Text.Utf8.encode s.toList).flatMap encodeOctet

def encodePair (p : Pair) : List Char := encodeText p.1 ++ '=' :: encodeText p.2

/-- Pairs appended to a query. -/
def append (query : List Char) (pairs : List Pair) : List Char :=
  pairs.foldl (fun q p => if q.isEmpty then encodePair p else q ++ '&' :: encodePair p) query

def encode (pairs : List Pair) : List Char := append [] pairs

/-- A plus is a space; what is not UTF-8 is replaced. -/
def decodeText (cs : List Char) : String :=
  String.ofList <| Text.Utf8.decode <| percentDecode <|
    (Text.Utf8.encode cs).map fun b => if b = 43 then 32 else b

/-- The name ends at the first equals sign; without one there is no value. -/
def decodePair (cs : List Char) : Pair :=
  match Text.splitFirst '=' cs with
  | some (name, value) => (decodeText name, decodeText value)
  | none => (decodeText cs, "")

def decode (query : List Char) : List Pair :=
  ((Text.pieces '&' query).filter (!·.isEmpty)).map decodePair

end Itinerary.Url.Form
