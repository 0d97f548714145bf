import Itinerary.Decimal.Layout
import Itinerary.Json.Basic

/-! JSON text without any blanks. -/
namespace Itinerary.Json

/-- Numbers from `10 ^ -5` up to `10 ^ 16` are written in place and always with a fraction, others
with an exponent; equally near numerals give way to the even one. -/
def floatChars (x : Float) : List Char :=
  let d := Decimal.shortest .even x
  let point : Int := (Decimal.width d.digits : Int) + d.exponent
  let magnitude :=
    if d.digits = 0 ∨ (-5 < point ∧ point ≤ 16) then
      if 0 ≤ d.exponent then Decimal.positional d ++ ['.', '0'] else Decimal.positional d
    else Decimal.scientific d
  Decimal.signed (Binary64.ofFloat x).negative magnitude

def hexChars (n : Nat) : List Char := [Nat.digitChar (n / 16), Nat.digitChar (n % 16)]

def escaped (c : Char) : List Char :=
  match c with
  | '"' => ['\\', '"']
  | '\\' => ['\\', '\\']
  | '\x08' => ['\\', 'b']
  | '\x0c' => ['\\', 'f']
  | '\n' => ['\\', 'n']
  | '\r' => ['\\', 'r']
  | '\t' => ['\\', 't']
  | c => if c.toNat < 0x20 then ['\\', 'u', '0', '0'] ++ hexChars c.toNat else [c]

def quoted (s : String) : List Char := '"' :: (s.toList.flatMap escaped ++ ['"'])

def separated : List (List Char) → List Char
  | [] => []
  | [text] => text
  | text :: texts => text ++ ',' :: separated texts

mutual

def chars : Json → List Char
  | .null => ['n', 'u', 'l', 'l']
  | .bool true => ['t', 'r', 'u', 'e']
  | .bool false => ['f', 'a', 'l', 's', 'e']
  | .int n => Decimal.signed (n < 0) (Nat.toDigits 10 n.natAbs)
  | .float x => if x.isFinite then floatChars x else ['n', 'u', 'l', 'l']
  | .str s => quoted s
  | .arr items => '[' :: (separated (itemChars items) ++ [']'])
  | .obj members => '\x7b' :: (separated (memberChars members) ++ ['\x7d'])
  | .unusable => ['n', 'u', 'l', 'l']

def itemChars : List Json → List (List Char)
  | [] => []
  | j :: js => chars j :: itemChars js

def memberChars : List (String × Json) → List (List Char)
  | [] => []
  | (k, j) :: ms => (quoted k ++ ':' :: chars j) :: memberChars ms

end

def render (j : Json) : String := String.ofList j.chars

end Itinerary.Json
