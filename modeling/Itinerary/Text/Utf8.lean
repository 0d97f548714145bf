/-! UTF-8 octets and characters. Decoding never fails: what is not UTF-8 becomes U+FFFD, or no character
where it has to be told apart. -/
namespace Itinerary.Text.Utf8

def encode (cs : List Char) : List UInt8 := cs.flatMap String.utf8EncodeChar

/-- A character whose first octets have been read: the octets still owed, the value so far, and
the range of the next octet. -/
structure Unfinished where
  owed : Nat
  value : Nat
  low : UInt8
  high : UInt8

/-- What an octet means between characters. -/
inductive Lead where
  | whole (c : Char)
  | first (u : Unfinished)
  | stray

def lead (b : UInt8) : Lead :=
  let n := b.toNat
  if n < 0x80 then .whole (Char.ofNat n)
  else if 0xC2 ≤ n && n ≤ 0xDF then .first ⟨1, n - 0xC0, 0x80, 0xBF⟩
  else if n == 0xE0 then .first ⟨2, 0, 0xA0, 0xBF⟩
  else if n == 0xED then .first ⟨2, 0xD, 0x80, 0x9F⟩
  else if 0xE1 ≤ n && n ≤ 0xEF then .first ⟨2, n - 0xE0, 0x80, 0xBF⟩
  else if n == 0xF0 then .first ⟨3, 0, 0x90, 0xBF⟩
  else if 0xF1 ≤ n && n ≤ 0xF3 then .first ⟨3, n - 0xF0, 0x80, 0xBF⟩
  else if n == 0xF4 then .first ⟨3, 4, 0x80, 0x8F⟩
  else .stray

/-- Each longest start of a character that is not completed, and each octet that starts none, is no
character. -/
def piecesFrom : Option Unfinished → List UInt8 → List (Option Char)
  | none, [] => []
  | some _, [] => [none]
  | none, b :: bs =>
    match lead b with
    | .whole c => some c :: piecesFrom none bs
    | .first u => piecesFrom (some u) bs
    | .stray => none :: piecesFrom none bs
  | some u, b :: bs =>
    if u.low ≤ b && b ≤ u.high then
      let value := u.value * 64 + (b.toNat - 0x80)
      if u.owed ≤ 1 then some (Char.ofNat value) :: piecesFrom none bs
      else piecesFrom (some ⟨u.owed - 1, value, 0x80, 0xBF⟩) bs
    else
      none ::
        match lead b with
        | .whole c => some c :: piecesFrom none bs
        | .first v => piecesFrom (some v) bs
        | .stray => none :: piecesFrom none bs

def pieces (bs : List UInt8) : List (Option Char) := piecesFrom none bs

def replacement : Char := '\uFFFD'

def decode (bs : List UInt8) : List Char := (pieces bs).map (·.getD replacement)

end Itinerary.Text.Utf8
