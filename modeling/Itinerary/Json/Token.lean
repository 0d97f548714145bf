import Itinerary.Json.Number

/-! The tokens of a JSON text. -/
namespace Itinerary.Json

inductive SyntaxError where
  | expectedValue
  | endInValue
  | endInList
  | endInObject
  | endInString
  | expectedColon
  | expectedCommaOrBracket
  | expectedCommaOrBrace
  | trailingComma
  | trailingCharacters
  | keyNotString
  | misspelledWord
  | invalidNumber
  | numberOutOfRange
  | invalidEscape
  | unfinishedEscape
  | loneSurrogate
  | controlCharacter
  | tooDeep
deriving DecidableEq, Repr

def SyntaxError.message : SyntaxError → String
  | .expectedValue => "expected value"
  | .endInValue => "EOF while parsing a value"
  | .endInList => "EOF while parsing a list"
  | .endInObject => "EOF while parsing an object"
  | .endInString => "EOF while parsing a string"
  | .expectedColon => "expected `:`"
  | .expectedCommaOrBracket => "expected `,` or `]`"
  | .expectedCommaOrBrace => "expected `,` or `\x7d`"
  | .trailingComma => "trailing comma"
  | .trailingCharacters => "trailing characters"
  | .keyNotString => "key must be a string"
  | .misspelledWord => "expected ident"
  | .invalidNumber => "invalid number"
  | .numberOutOfRange => "number out of range"
  | .invalidEscape => "invalid escape"
  | .unfinishedEscape => "unexpected end of hex escape"
  | .loneSurrogate => "lone leading surrogate in hex escape"
  | .controlCharacter => "control character (\\u0000-\\u001F) found while parsing a string"
  | .tooDeep => "recursion limit exceeded"

/-- What to do with a value that is well formed but stands for nothing, and with deep nesting:
refuse it at once, or keep it for whoever needs the value to refuse. -/
inductive Mode where
  | strict
  | tolerant
deriving DecidableEq, Repr

/-- In `text` is what a string stands for, if anything. A `fault` is the start of a scalar that does
not go on as it must; it ends the tokens. -/
inductive Token where
  | mark (c : Char)
  | text (s : Option String)
  | scalar (j : Json)
  | fault (quoted : Bool) (e : SyntaxError)

namespace Token

/-- Where the reader of a string stands. `high` is a leading surrogate whose other half is due;
`hex` has that many digits to go. -/
inductive Inside where
  | plain (high : Option Nat)
  | escaped (high : Option Nat)
  | hex (high : Option Nat) (due : Nat) (value : Nat)

def hexDigit (c : Char) : Option Nat :=
  if c.isDigit then some (c.toNat - '0'.toNat)
  else if 'a' ≤ c ∧ c ≤ 'f' then some (c.toNat - 'a'.toNat + 10)
  else if 'A' ≤ c ∧ c ≤ 'F' then some (c.toNat - 'A'.toNat + 10)
  else none

def escapedChar (c : Char) : Option Char :=
  match c with
  | '"' => some '"'
  | '\\' => some '\\'
  | '/' => some '/'
  | 'b' => some '\x08'
  | 'f' => some '\x0c'
  | 'n' => some '\n'
  | 'r' => some '\r'
  | 't' => some '\t'
  | _ => none

def isHigh (n : Nat) : Bool := 0xD800 ≤ n && n ≤ 0xDBFF

def isLow (n : Nat) : Bool := 0xDC00 ≤ n && n ≤ 0xDFFF

/-- A string's text, if it has one, and the characters behind its closing quote. -/
abbrev Tail := Option (List Char) × List Char

private def push (c : Char) (t : Tail) : Tail := (t.1.map (c :: ·), t.2)

private def spoil (t : Tail) : Tail := (none, t.2)

/-- The rest of a string from inside it. -/
def string (mode : Mode) : Inside → List Char → Except SyntaxError Tail
  | _, [] => .error .endInString
  | .plain high, c :: cs =>
    if high.isSome ∧ c ≠ '\\' ∧ mode = .strict then .error .unfinishedEscape
    else if c = '"' then .ok (if high.isSome then none else some [], cs)
    else if c = '\\' then string mode (.escaped high) cs
    else if c.toNat < 0x20 then .error .controlCharacter
    else (string mode (.plain none) cs).map (if high.isSome then spoil else push c)
  | .escaped high, c :: cs =>
    if c = 'u' then
      if (cs.take 4).foldl (fun size c => size + c.utf8Size) 0 < 4 then .error .endInString
      else string mode (.hex high 4 0) cs
    else if high.isSome ∧ mode = .strict then .error .unfinishedEscape
    else
      match escapedChar c with
      | some e => (string mode (.plain none) cs).map (if high.isSome then spoil else push e)
      | none => .error .invalidEscape
  | .hex high due value, c :: cs =>
    match hexDigit c with
    | none => .error .invalidEscape
    | some digit =>
      let value := value * 16 + digit
      if 1 < due then string mode (.hex high (due - 1) value) cs
      else
        match high with
        | some h =>
          if isLow value then
            (string mode (.plain none) cs).map
              (push (Char.ofNat (0x10000 + (h - 0xD800) * 0x400 + (value - 0xDC00))))
          else if mode = .strict then .error .loneSurrogate
          else (string mode (.plain none) cs).map spoil
        | none =>
          if isHigh value then string mode (.plain (some value)) cs
          else if isLow value then
            if mode = .strict then .error .loneSurrogate
            else (string mode (.plain none) cs).map spoil
          else (string mode (.plain none) cs).map (push (Char.ofNat value))

private theorem string_shortens {mode : Mode} {inside : Inside} {cs : List Char} {t : Tail}
    (h : string mode inside cs = .ok t) : t.2.length < cs.length := by
  induction cs generalizing inside t with
  | nil => simp [string] at h
  | cons c cs ih =>
    have mapped {inside : Inside} {f : Tail → Tail} (hf : ∀ u, (f u).2 = u.2)
        (h : (string mode inside cs).map f = .ok t) : t.2.length < (c :: cs).length := by
      cases hs : string mode inside cs with
      | error e => simp [hs, Except.map] at h
      | ok u =>
        simp only [hs, Except.map, Except.ok.injEq] at h
        rw [← h, hf]
        exact Nat.lt_succ_of_lt (ih hs)
    have direct {inside : Inside} (h : string mode inside cs = .ok t) :
        t.2.length < (c :: cs).length := Nat.lt_succ_of_lt (ih h)
    unfold string at h
    grind [push, spoil, List.length_cons]

/-- Digits of which there must be one, and what follows them. -/
def someDigits (cs : List Char) : Except SyntaxError (List Char × List Char) :=
  match cs.takeWhile Char.isDigit with
  | [] => .error (if cs.isEmpty then .endInValue else .invalidNumber)
  | digits => .ok (digits, cs.dropWhile Char.isDigit)

private theorem someDigits_shortens {cs digits rest : List Char} (h : someDigits cs = .ok (digits, rest)) :
    rest.length < cs.length := by
  unfold someDigits at h
  split at h
  · simp at h
  · rename_i found
    simp only [Except.ok.injEq, Prod.mk.injEq] at h
    have parts := congrArg List.length (List.takeWhile_append_dropWhile (p := Char.isDigit) (l := cs))
    rw [List.length_append] at parts
    have positive : 0 < (cs.takeWhile Char.isDigit).length :=
      List.length_pos_iff.2 fun empty => found (empty ▸ rfl)
    rw [← h.2]
    omega

/-- The point and the digits after it. -/
def fractionPart : List Char → Except SyntaxError (Option (List Char) × List Char)
  | '.' :: cs => do
    let (digits, rest) ← someDigits cs
    return (some digits, rest)
  | cs => .ok (none, cs)

private theorem fractionPart_length {cs rest : List Char} {fraction : Option (List Char)}
    (h : fractionPart cs = .ok (fraction, rest)) : rest.length ≤ cs.length := by
  unfold fractionPart at h
  split at h
  · rename_i tail
    cases hd : someDigits tail with
    | error e => simp [hd, bind, Except.bind] at h
    | ok found =>
      simp only [hd, bind, Except.bind, pure, Except.pure, Except.ok.injEq, Prod.mk.injEq] at h
      have := someDigits_shortens hd
      simp only [← h.2, List.length_cons]
      omega
  · simp only [Except.ok.injEq, Prod.mk.injEq] at h
    exact Nat.le_of_eq (congrArg List.length h.2.symm)

/-- Whether a power is negative, and what follows its sign. -/
def powerSign : List Char → Bool × List Char
  | '-' :: cs => (true, cs)
  | '+' :: cs => (false, cs)
  | cs => (false, cs)

private theorem powerSign_length (cs : List Char) : (powerSign cs).2.length ≤ cs.length := by
  unfold powerSign
  split <;> simp

/-- The power of ten: whether it is negative, and its digits. -/
def powerPart : List Char → Except SyntaxError (Option (Bool × List Char) × List Char)
  | [] => .ok (none, [])
  | c :: cs =>
    if c = 'e' ∨ c = 'E' then do
      let (digits, rest) ← someDigits (powerSign cs).2
      return (some ((powerSign cs).1, digits), rest)
    else .ok (none, c :: cs)

private theorem powerPart_length {cs rest : List Char} {power : Option (Bool × List Char)}
    (h : powerPart cs = .ok (power, rest)) : rest.length ≤ cs.length := by
  unfold powerPart at h
  split at h
  · simp only [Except.ok.injEq, Prod.mk.injEq] at h
    simp [← h.2]
  · rename_i c cs
    split at h
    · cases hd : someDigits (powerSign cs).2 with
      | error e => simp [hd, bind, Except.bind] at h
      | ok found =>
        simp only [hd, bind, Except.bind, pure, Except.pure, Except.ok.injEq, Prod.mk.injEq] at h
        have := someDigits_shortens hd
        have := powerSign_length cs
        simp only [← h.2, List.length_cons]
        omega
    · simp only [Except.ok.injEq, Prod.mk.injEq] at h
      exact Nat.le_of_eq (congrArg List.length h.2.symm)

/-- Whether a numeral is negative, and what follows its sign. -/
def minusSign : List Char → Bool × List Char
  | '-' :: cs => (true, cs)
  | cs => (false, cs)

private theorem minusSign_length (cs : List Char) : (minusSign cs).2.length ≤ cs.length := by
  unfold minusSign
  split <;> simp

/-- A numeral at the start of the text: no zero stands before another digit of its whole part. -/
def numeral (cs : List Char) : Except SyntaxError (Numeral × List Char) := do
  let (whole, rest) ← someDigits (minusSign cs).2
  if whole.head? = some '0' ∧ 1 < whole.length then throw .invalidNumber
  let (fraction, rest) ← fractionPart rest
  let (power, rest) ← powerPart rest
  return (⟨(minusSign cs).1, whole, fraction, power⟩, rest)

theorem numeral_shortens {cs rest : List Char} {n : Numeral} (h : numeral cs = .ok (n, rest)) :
    rest.length < cs.length := by
  have hs := minusSign_length cs
  unfold numeral at h
  cases hw : someDigits (minusSign cs).2 with
  | error e => simp [hw, bind, Except.bind] at h
  | ok whole =>
    have := someDigits_shortens hw
    cases hf : fractionPart whole.2 with
    | error e =>
      simp only [hw, hf, bind, Except.bind, throw, throwThe, MonadExceptOf.throw] at h
      split at h <;> simp at h
    | ok fraction =>
      have := fractionPart_length hf
      cases hp : powerPart fraction.2 with
      | error e =>
        simp only [hw, hf, hp, bind, Except.bind, throw, throwThe, MonadExceptOf.throw] at h
        split at h <;> simp at h
      | ok power =>
        have := powerPart_length hp
        simp only [hw, hf, hp, bind, Except.bind, throw, throwThe, MonadExceptOf.throw] at h
        split at h
        · simp at h
        · simp only [pure, Except.pure, Except.ok.injEq, Prod.mk.injEq] at h
          rw [← h.2]
          omega

/-- The rest of a word whose first letter has been seen. -/
def word : List Char → List Char → Except SyntaxError (List Char)
  | [], cs => .ok cs
  | _, [] => .error .endInValue
  | w :: ws, c :: cs => if c = w then word ws cs else .error .misspelledWord

private theorem word_length {ws cs rest : List Char} (h : word ws cs = .ok rest) :
    rest.length ≤ cs.length := by
  induction ws generalizing cs with
  | nil => simp only [word, Except.ok.injEq] at h; exact Nat.le_of_eq (congrArg List.length h.symm)
  | cons w ws ih =>
    cases cs with
    | nil => simp [word] at h
    | cons c cs =>
      simp only [word] at h
      split at h
      · exact Nat.le_succ_of_le (ih h)
      · simp at h

def isMark (c : Char) : Bool :=
  c == '\x7b' || c == '\x7d' || c == '[' || c == ']' || c == ':' || c == ','

/-- What stands between tokens. -/
def isGap (c : Char) : Bool := c == ' ' || c == '\n' || c == '\t' || c == '\r'

/-- The token at the start of `c :: cs`, if no mark is there, and the characters behind it. -/
def scalarAt (mode : Mode) (c : Char) (cs : List Char) : Except SyntaxError (Token × List Char) :=
  if c = '"' then do
    let (body, rest) ← string mode (.plain none) cs
    return (.text (body.map String.ofList), rest)
  else if c = '-' ∨ c.isDigit then do
    let (t, rest) ← numeral (c :: cs)
    match t.value, mode with
    | some j, _ => return (.scalar j, rest)
    | none, .tolerant => return (.scalar .unusable, rest)
    | none, .strict => throw .numberOutOfRange
  else if c = 'n' then do return (.scalar .null, ← word ['u', 'l', 'l'] cs)
  else if c = 't' then do return (.scalar (.bool true), ← word ['r', 'u', 'e'] cs)
  else if c = 'f' then do return (.scalar (.bool false), ← word ['a', 'l', 's', 'e'] cs)
  else throw .expectedValue

theorem scalarAt_shortens {mode : Mode} {c : Char} {cs rest : List Char} {t : Token}
    (h : scalarAt mode c cs = .ok (t, rest)) : rest.length < (c :: cs).length := by
  have spelled {ws : List Char} {j : Json}
      (h : (word ws cs >>= fun rest => pure (.scalar j, rest)) = (.ok (t, rest) : Except _ _)) :
      rest.length < (c :: cs).length := by
    cases hw : word ws cs with
    | error e => simp [hw, bind, Except.bind] at h
    | ok found =>
      simp only [hw, bind, Except.bind, pure, Except.pure, Except.ok.injEq, Prod.mk.injEq] at h
      exact h.2 ▸ Nat.lt_succ_of_le (word_length hw)
  unfold scalarAt at h
  split at h
  · cases hs : string mode (.plain none) cs with
    | error e => simp [hs, bind, Except.bind] at h
    | ok found =>
      simp only [hs, bind, Except.bind, pure, Except.pure, Except.ok.injEq, Prod.mk.injEq] at h
      exact h.2 ▸ Nat.lt_succ_of_lt (string_shortens hs)
  · split at h
    · cases hn : numeral (c :: cs) with
      | error e => simp [hn, bind, Except.bind] at h
      | ok found =>
        simp only [hn, bind, Except.bind, pure, Except.pure, throw, throwThe,
          MonadExceptOf.throw] at h
        have := numeral_shortens hn
        split at h <;> grind
    · split at h
      · exact spelled h
      · split at h
        · exact spelled h
        · split at h
          · exact spelled h
          · simp [throw, throwThe, MonadExceptOf.throw] at h

/-- The tokens of a text, up to the first fault. -/
def scan (mode : Mode) : List Char → List Token
  | [] => []
  | c :: cs =>
    if isGap c then scan mode cs
    else if isMark c then .mark c :: scan mode cs
    else
      match _h : scalarAt mode c cs with
      | .error e => [.fault (c == '"') e]
      | .ok (t, rest) => t :: scan mode rest
termination_by cs => cs.length
decreasing_by
  · exact Nat.lt_succ_self _
  · exact Nat.lt_succ_self _
  · exact scalarAt_shortens _h

end Token
end Itinerary.Json
