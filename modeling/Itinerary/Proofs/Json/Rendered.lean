import Itinerary.Json.Parser
import Itinerary.Proofs.Json.Number

/-! The text of a value is read as that value, whatever its numerals are taken for. -/
namespace Itinerary.Json

section
variable (value : Numeral → Json)

/-- What the text of a number is read as. -/
def numberBy (cs : List Char) : Json :=
  match Token.numeral cs with
  | .ok (t, _) => value t
  | .error _ => .unusable

mutual

/-- What the text of a value is read as. -/
def rereadBy : Json → Json
  | .null => .null
  | .bool b => .bool b
  | .int n => numberBy value (Json.int n).chars
  | .float x => if x.isFinite then numberBy value (floatChars x) else .null
  | .str s => .str s
  | .arr items => .arr (rereadItemsBy items)
  | .obj members => .obj (rereadMembersBy members)
  | .unusable => .null

def rereadItemsBy : List Json → List Json
  | [] => []
  | j :: js => rereadBy j :: rereadItemsBy js

def rereadMembersBy : List (String × Json) → List (String × Json)
  | [] => []
  | (k, j) :: ms => (k, rereadBy j) :: rereadMembersBy ms

end

namespace Token

/-- As `scalarAt`, with every numeral taken for its value. -/
def scalarBy (c : Char) (cs : List Char) : Except SyntaxError (Token × List Char) :=
  if c = '-' ∨ c.isDigit then
    match numeral (c :: cs) with
    | .ok (t, rest) => .ok (.scalar (value t), rest)
    | .error e => .error e
  else scalarAt .tolerant c cs

theorem scalarBy_shortens {c : Char} {cs rest : List Char} {t : Token}
    (h : scalarBy value c cs = .ok (t, rest)) : rest.length < (c :: cs).length := by
  rw [scalarBy] at h
  split at h
  · split at h
    · rename_i read
      cases h
      exact numeral_shortens read
    · cases h
  · exact scalarAt_shortens h

/-- What has been read of a text that goes on with `c`, and the tokens behind it. -/
def followed (c : Char) (more : List Char → List Token) : Except SyntaxError (Token × List Char) → List Token
  | .error e => [.fault (c == '"') e]
  | .ok (t, rest) => t :: more rest

/-- The tokens of a text, up to the first fault. -/
def scanBy : List Char → List Token
  | [] => []
  | c :: cs =>
    if isGap c then scanBy cs
    else if isMark c then .mark c :: scanBy cs
    else
      match _h : scalarBy value c cs with
      | .error e => [.fault (c == '"') e]
      | .ok (t, rest) => t :: scanBy rest
termination_by cs => cs.length
decreasing_by
  · exact Nat.lt_succ_self _
  · exact Nat.lt_succ_self _
  · exact scalarBy_shortens value _h

end Token

/-- The value of a text, with what is unusable left in place. -/
def readBy (text : String) : Option Json :=
  (Parser.run .tolerant [] .value (Token.scanBy value text.toList)).toOption

end

variable {value : Numeral → Json}

namespace Token
variable {c : Char} {cs rest : List Char}

theorem scanBy_cons (c : Char) (cs : List Char) : scanBy value (c :: cs) =
    if isGap c then scanBy value cs
    else if isMark c then .mark c :: scanBy value cs
    else followed c (scanBy value) (scalarBy value c cs) := by
  rw [scanBy]
  split
  · rfl
  · split
    · rfl
    · split <;> rename_i read <;> rw [read] <;> rfl

private theorem scanBy_mark (h : isMark c = true) (cs : List Char) :
    scanBy value (c :: cs) = .mark c :: scanBy value cs := by
  have gap : isGap c = false := by
    simp only [isMark, Bool.or_eq_true, beq_iff_eq] at h
    rcases h with ((((rfl | rfl) | rfl) | rfl) | rfl) | rfl <;> rfl
  rw [scanBy_cons, gap, h]
  rfl

private theorem scanBy_scalar {t : Token} (gap : isGap c = false) (mark : isMark c = false)
    (h : scalarBy value c cs = .ok (t, rest)) : scanBy value (c :: cs) = t :: scanBy value rest := by
  rw [scanBy_cons, gap, mark, h]
  rfl

private theorem scanBy_quoted (s : String) (rest : List Char) :
    scanBy value (quoted s ++ rest) = .text (some s) :: scanBy value rest := by
  have read : scalarBy value '"' (s.toList.flatMap escaped ++ '"' :: rest) = .ok (.text (some s), rest) := by
    rw [scalarBy, if_neg (by decide), scalarAt, if_pos rfl, string_quoted]
    change Except.ok (Token.text (some (String.ofList s.toList)), rest) = _
    rw [String.ofList_toList]
  rw [quoted, List.cons_append, List.append_assoc]
  exact scanBy_scalar rfl rfl read

theorem numberBy_chars {t : Numeral} (w : t.Proper) : numberBy value t.chars = value t := by
  have ends : Ends [] := fun c hc => by cases hc
  have read := Numeral.numeral_chars w ends
  rw [List.append_nil] at read
  rw [numberBy, read]

/-- A proper numeral is a token of its own. -/
private theorem scanBy_numeral {t : Numeral} (w : t.Proper) (h : Ends rest) :
    scanBy value (t.chars ++ rest) = .scalar (numberBy value t.chars) :: scanBy value rest := by
  obtain ⟨c, cs, hc, first⟩ := w.exists_chars
  have read := Numeral.numeral_chars w h
  rw [hc, List.cons_append] at read
  have plain : isGap c = false ∧ isMark c = false := by
    rcases first with rfl | digit
    · decide
    · refine ⟨?_, ?_⟩
      · rw [Bool.eq_false_iff]
        intro gap
        simp only [isGap, Bool.or_eq_true, beq_iff_eq] at gap
        rcases gap with ((rfl | rfl) | rfl) | rfl <;> cases digit
      · rw [Bool.eq_false_iff]
        intro mark
        rw [not_digit_of_isMark mark] at digit
        cases digit
  have scalar : scalarBy value c (cs ++ rest) = .ok (.scalar (numberBy value t.chars), rest) := by
    rw [numberBy_chars w, scalarBy, if_pos first, read]
  have scanned := scanBy_scalar plain.1 plain.2 scalar
  rw [← List.cons_append, ← hc] at scanned
  exact scanned

end Token

namespace Parser
open Token

/-- The rest of a text, once a value is handed over. -/
def resume (value : Numeral → Json) (p : List Frame × Expect) (rest : List Char) : Except SyntaxError Json :=
  run .tolerant p.1 p.2 (scanBy value rest)

/-- A value may begin. -/
def opens : Expect → Bool
  | .value | .firstItem | .nextItem => true
  | _ => false

private theorem step_opens {mode : Mode} {stack : List Frame} {t : Token} {e : Expect} (h : opens e = true)
    (ht : isMarkOf ']' t = false) : step mode stack t e = begin mode stack t := by
  cases e with
  | value => rfl
  | firstItem => rw [step, ht]; rfl
  | nextItem => rw [step, ht]; rfl
  | _ => cases h

variable {stack : List Frame} {e : Expect} {rest : List Char}

private theorem run_cons {t : Token} {p : List Frame × Expect} (h : step .tolerant stack t e = .ok p)
    (ts : List Token) : run .tolerant stack e (t :: ts) = run .tolerant p.1 p.2 ts := by
  rw [run, h]
  rfl

/-- A scalar is handed over at once. -/
theorem run_scalar {cs : List Char} {j : Json} (he : opens e = true)
    (h : scanBy value (cs ++ rest) = .scalar j :: scanBy value rest) :
    run .tolerant stack e (scanBy value (cs ++ rest)) = resume value (deliver j stack) rest := by
  have handed : step .tolerant stack (.scalar j) e = .ok (deliver j stack) := step_opens he rfl
  rw [h, run_cons handed]
  rfl

private theorem run_numeral {t : Numeral} (w : t.Proper) (he : opens e = true) (h : Ends rest) :
    run .tolerant stack e (scanBy value (t.chars ++ rest)) =
      resume value (deliver (numberBy value t.chars) stack) rest :=
  run_scalar he (scanBy_numeral w h)

private theorem run_null (he : opens e = true) :
    run .tolerant stack e (scanBy value (['n', 'u', 'l', 'l'] ++ rest)) =
    resume value (deliver .null stack) rest :=
  run_scalar he (scanBy_scalar rfl rfl rfl)

private theorem separated_cons (text : List Char) (texts : List (List Char)) :
    separated (text :: texts) = text ++ texts.flatMap (',' :: ·) := by
  induction texts generalizing text with
  | nil => rw [separated, List.flatMap_nil, List.append_nil]
  | cons next texts ih =>
    rw [separated, ih, List.flatMap_cons, List.cons_append]
    exact List.cons_ne_nil _ _

private theorem ends_mark {c : Char} (h : isMark c = true) (cs : List Char) : Ends (c :: cs) := by
  intro d hd
  cases hd
  exact h

/-- What follows an element of a list or object ends that element. -/
theorem ends_tail {c : Char} (h : isMark c = true) (texts : List (List Char)) (rest : List Char) :
    Ends (texts.flatMap (',' :: ·) ++ c :: rest) := by
  cases texts with
  | nil => exact ends_mark h rest
  | cons text texts => exact ends_mark rfl _

/-- A key and its colon. -/
theorem run_key {members : List (String × Json)} {e : Expect} (he : e = .firstKey ∨ e = .nextKey)
    (k : String) (cs : List Char) :
    run .tolerant (.object members "" true :: stack) e (scanBy value (quoted k ++ ':' :: cs)) =
      run .tolerant (.object members k true :: stack) .value (scanBy value cs) := by
  have named : step .tolerant (.object members "" true :: stack) (.text (some k)) e =
      .ok (.object members k true :: stack, .colon) := by
    rcases he with rfl | rfl <;> rfl
  have colon : step .tolerant (.object members k true :: stack) (.mark ':') .colon =
      .ok (.object members k true :: stack, .value) := rfl
  rw [scanBy_quoted, scanBy_mark rfl, run_cons named, run_cons colon]

private theorem step_list (he : opens e = true) :
    step .tolerant stack (.mark '[') e = .ok (.list [] :: stack, .firstItem) := step_opens he rfl

private theorem step_object (he : opens e = true) :
    step .tolerant stack (.mark '\x7b') e = .ok (.object [] "" true :: stack, .firstKey) :=
  step_opens he rfl

mutual

/-- Where a value may begin, its text is read up to its end and handed over. -/
theorem run_chars (j : Json) (stack : List Frame) (e : Expect) (rest : List Char) (he : opens e = true)
    (h : Ends rest) : run .tolerant stack e (scanBy value (j.chars ++ rest)) =
      resume value (deliver (rereadBy value j) stack) rest := by
  cases j with
  | null => exact run_null he
  | bool b => cases b <;> exact run_scalar he (scanBy_scalar rfl rfl rfl)
  | int n =>
    rw [rereadBy, ← chars_wholeNumeral]
    exact run_numeral (wholeNumeral_proper n) he h
  | float x =>
    rw [chars, rereadBy]
    split
    · obtain ⟨t, spells, written⟩ := exists_floatChars x
      rw [← written]
      exact run_numeral spells.proper he h
    · exact run_null he
  | str s =>
    have handed : step .tolerant stack (.text (some s)) e = .ok (deliver (.str s) stack) := step_opens he rfl
    rw [chars, scanBy_quoted, run_cons handed]
    rfl
  | arr items =>
    rw [chars, List.cons_append, List.append_assoc, scanBy_mark rfl, run_cons (step_list he)]
    cases items with
    | nil =>
      change run .tolerant (.list [] :: stack) .firstItem (scanBy value (']' :: rest)) = _
      rw [scanBy_mark rfl]
      exact run_cons rfl _
    | cons j js =>
      rw [itemChars, separated_cons, List.append_assoc]
      refine (run_chars j (.list [] :: stack) .firstItem _ rfl (ends_tail rfl _ _)).trans ?_
      exact run_items js [rereadBy value j] stack rest
  | obj members =>
    rw [chars, List.cons_append, List.append_assoc, scanBy_mark rfl, run_cons (step_object he)]
    cases members with
    | nil =>
      change run .tolerant (.object [] "" true :: stack) .firstKey (scanBy value ('\x7d' :: rest)) = _
      rw [scanBy_mark rfl]
      exact run_cons rfl _
    | cons m ms =>
      obtain ⟨k, j⟩ := m
      rw [memberChars, separated_cons, List.append_assoc, List.append_assoc, List.cons_append,
        run_key (.inl rfl)]
      refine (run_chars j (.object [] k true :: stack) .value _ rfl (ends_tail rfl _ _)).trans ?_
      exact run_members ms [(k, rereadBy value j)] stack rest
  | unusable => exact run_null he

/-- The rest of a list. -/
theorem run_items (js : List Json) (read : List Json) (stack : List Frame) (rest : List Char) :
    run .tolerant (.list read :: stack) .separator
        (scanBy value ((itemChars js).flatMap (',' :: ·) ++ ']' :: rest)) =
      resume value (deliver (.arr (read.reverse ++ rereadItemsBy value js)) stack) rest := by
  cases js with
  | nil =>
    rw [itemChars, List.flatMap_nil, List.nil_append, scanBy_mark rfl, rereadItemsBy, List.append_nil]
    exact run_cons rfl _
  | cons j js =>
    have next : step .tolerant (.list read :: stack) (.mark ',') .separator =
        .ok (.list read :: stack, .nextItem) := rfl
    rw [itemChars, List.flatMap_cons, List.cons_append, List.cons_append, List.append_assoc, scanBy_mark rfl,
      run_cons next]
    refine (run_chars j (.list read :: stack) .nextItem _ rfl (ends_tail rfl _ _)).trans ?_
    refine (run_items js ((rereadBy value j) :: read) stack rest).trans ?_
    rw [rereadItemsBy, List.reverse_cons, List.append_assoc]
    rfl

/-- The rest of an object. -/
theorem run_members (ms : List (String × Json)) (read : List (String × Json)) (stack : List Frame)
    (rest : List Char) : run .tolerant (.object read "" true :: stack) .separator
        (scanBy value ((memberChars ms).flatMap (',' :: ·) ++ '\x7d' :: rest)) =
      resume value (deliver (.obj (read.reverse ++ rereadMembersBy value ms)) stack) rest := by
  cases ms with
  | nil =>
    rw [memberChars, List.flatMap_nil, List.nil_append, scanBy_mark rfl, rereadMembersBy, List.append_nil]
    exact run_cons rfl _
  | cons m ms =>
    obtain ⟨k, j⟩ := m
    have next : step .tolerant (.object read "" true :: stack) (.mark ',') .separator =
        .ok (.object read "" true :: stack, .nextKey) := rfl
    simp only [memberChars, List.flatMap_cons, List.cons_append, List.append_assoc]
    rw [scanBy_mark rfl, run_cons next, run_key (.inr rfl)]
    refine (run_chars j (.object read k true :: stack) .value _ rfl (ends_tail rfl _ _)).trans ?_
    refine (run_members ms ((k, rereadBy value j) :: read) stack rest).trans ?_
    rw [rereadMembersBy, List.reverse_cons, List.append_assoc]
    rfl

end

end Parser

/-- The text of any value is a JSON text. -/
theorem readBy_render (value : Numeral → Json) (j : Json) : readBy value j.render = some (rereadBy value j) := by
  have ends : Token.Ends [] := fun c hc => by cases hc
  have whole : Parser.run .tolerant [] .value (Token.scanBy value (j.chars ++ [])) =
      Parser.resume value (Parser.deliver (rereadBy value j) []) [] :=
    Parser.run_chars j [] .value [] rfl ends
  rw [List.append_nil] at whole
  rw [readBy, render, String.toList_ofList, whole, Parser.resume, Token.scanBy]
  rfl

end Itinerary.Json
