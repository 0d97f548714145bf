import Itinerary.Json.Token

/-! From tokens to values, with the open lists and objects on a stack. -/
namespace Itinerary.Json

/-- A list or object that is still open, last element first. In an object, the key that waits for
its value. -/
inductive Frame where
  | list (items : List Json)
  | object (members : List (String × Json)) (key : String) (sound : Bool)

/-- What may come next. -/
inductive Expect where
  | value
  | firstItem
  | nextItem
  | firstKey
  | nextKey
  | colon
  | separator
  | nothing (result : Json)

namespace Parser

/-- Lists and objects may nest this deep. -/
def maxDepth : Nat := 127

/-- Hands a complete value to the innermost open list or object. -/
def deliver (j : Json) : List Frame → List Frame × Expect
  | [] => ([], .nothing j)
  | .list items :: stack => (.list (j :: items) :: stack, .separator)
  | .object members key sound :: stack =>
    (.object ((key, j) :: members) "" sound :: stack, .separator)

/-- An object is of no use if one of its keys is none. -/
def closed : Frame → Json
  | .list items => .arr items.reverse
  | .object members _ true => .obj members.reverse
  | .object _ _ false => .unusable

def inList : List Frame → Bool
  | .list _ :: _ => true
  | _ => false

/-- The text has ended. -/
def atEnd (stack : List Frame) : Expect → Except SyntaxError Json
  | .nothing j => .ok j
  | .firstItem => .error .endInList
  | .firstKey | .colon => .error .endInObject
  | .separator => .error (if inList stack then .endInList else .endInObject)
  | .value | .nextItem | .nextKey => .error .endInValue

/-- A value begins. -/
def begin (mode : Mode) (stack : List Frame) : Token → Except SyntaxError (List Frame × Expect)
  | .text s => .ok (deliver ((s.map .str).getD .unusable) stack)
  | .scalar j => .ok (deliver j stack)
  | .fault _ e => .error e
  | .mark c =>
    if c ≠ '[' ∧ c ≠ '\x7b' then .error .expectedValue
    else if mode = .strict ∧ maxDepth ≤ stack.length then .error .tooDeep
    else if c = '[' then .ok (.list [] :: stack, .firstItem)
    else .ok (.object [] "" true :: stack, .firstKey)

/-- The innermost list or object ends. -/
def close : List Frame → Except SyntaxError (List Frame × Expect)
  | [] => .error .trailingCharacters
  | frame :: stack => .ok (deliver (closed frame) stack)

/-- A key begins. -/
def key : List Frame → Token → Except SyntaxError (List Frame × Expect)
  | .object members _ sound :: stack, .text s =>
    .ok (.object members (s.getD "") (sound && s.isSome) :: stack, .colon)
  | _, .fault true e => .error e
  | _, _ => .error .keyNotString

def isMarkOf (c : Char) : Token → Bool
  | .mark d => c == d
  | _ => false

/-- One token. -/
def step (mode : Mode) (stack : List Frame) (t : Token) :
    Expect → Except SyntaxError (List Frame × Expect)
  | .value => begin mode stack t
  | .firstItem => if isMarkOf ']' t then close stack else begin mode stack t
  | .nextItem => if isMarkOf ']' t then .error .trailingComma else begin mode stack t
  | .firstKey => if isMarkOf '\x7d' t then close stack else key stack t
  | .nextKey => if isMarkOf '\x7d' t then .error .trailingComma else key stack t
  | .colon => if isMarkOf ':' t then .ok (stack, .value) else .error .expectedColon
  | .separator =>
    if inList stack then
      if isMarkOf ',' t then .ok (stack, .nextItem)
      else if isMarkOf ']' t then close stack
      else .error .expectedCommaOrBracket
    else
      if isMarkOf ',' t then .ok (stack, .nextKey)
      else if isMarkOf '\x7d' t then close stack
      else .error .expectedCommaOrBrace
  | .nothing _ => .error .trailingCharacters

def run (mode : Mode) (stack : List Frame) (expect : Expect) :
    List Token → Except SyntaxError Json
  | [] => atEnd stack expect
  | t :: ts => do
    let (stack, expect) ← step mode stack t expect
    run mode stack expect ts

end Parser

/-- The value of a whole text. -/
def parse (mode : Mode) (text : String) : Except SyntaxError Json :=
  Parser.run mode [] .value (Token.scan mode text.toList)

/-- The value of a text, with what is unusable left in place. -/
def read (text : String) : Option Json := (parse .tolerant text).toOption

end Itinerary.Json
