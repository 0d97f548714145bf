import Itinerary.Geometry
import Itinerary.Proofs.Decimal.Literal
import Itinerary.Proofs.Payload
import Itinerary.Proofs.Polyline.Wkt
import Itinerary.Proofs.Text.Words

/-! A line string in well-known text is the same polyline as the tuples of its numbers, however it is laid
out. -/
namespace Itinerary.Geometry
open Polyline

/-- Blanks, at least so many. -/
structure Gap (least : Nat) where
  chars : List Char
  blanks : chars.all Text.isBlank = true
  enough : least ≤ chars.length

/-- A number in one of its spellings. -/
structure NumberText where
  chars : List Char
  value : Float
  read : Decimal.readFloat chars = some value

/-- A vertex as it may be laid out: two numbers, perhaps more behind them, and blanks between and around
them. -/
structure VertexText where
  before : Gap 0
  lng : NumberText
  gap : Gap 1
  lat : NumberText
  others : List (Gap 1 × NumberText)
  after : Gap 0

/-- A line string as it may be laid out in well-known text: the keyword in any case, a tag behind it, and
the vertices in parentheses with commas between them. -/
structure LineText where
  before : Gap 0
  keyword : List Char
  spelled : keyword.map Char.toUpper = wktKeyword
  tag : List Char
  tagged : '(' ∉ tag
  vertices : List VertexText
  some : vertices ≠ []
  after : Gap 0

namespace NumberText
variable (n : NumberText)

private theorem ne_nil : n.chars ≠ [] := (Decimal.isLiteral_of_readFloat n.read).1

private theorem not_blank : ∀ c ∈ n.chars, Text.isBlank c = false := fun c hc =>
  Decimal.not_blank_of_isLiteral ((Decimal.isLiteral_of_readFloat n.read).2 c hc)

private theorem comma_not_mem : ',' ∉ n.chars := fun hc =>
  absurd ((Decimal.isLiteral_of_readFloat n.read).2 _ hc) (by decide)

end NumberText

private theorem Gap.blank {least : Nat} (g : Gap least) : ∀ c ∈ g.chars, Text.isBlank c = true :=
  List.all_eq_true.mp g.blanks

private theorem Gap.comma_not_mem {least : Nat} (g : Gap least) : ',' ∉ g.chars := fun hc =>
  absurd (g.blank _ hc) (by decide)

/-- Numbers, each behind a gap. -/
def spaced (numbers : List (Gap 1 × NumberText)) : List Char :=
  numbers.flatMap fun (gap, number) => gap.chars ++ number.chars

/-- Behind a number comes a blank, or nothing. -/
theorem head_spaced (numbers : List (Gap 1 × NumberText)) (after : Gap 0) :
    ∀ c ∈ (spaced numbers ++ after.chars).head?, Text.isBlank c = true := by
  intro c hc
  cases numbers with
  | nil => exact after.blank c (List.mem_of_mem_head? hc)
  | cons number numbers =>
    obtain ⟨gap, number⟩ := number
    have filled : gap.chars ≠ [] := List.ne_nil_of_length_pos gap.enough
    simp only [spaced, List.flatMap_cons, List.append_assoc, List.head?_append_of_ne_nil _ filled] at hc
    exact gap.blank c (List.mem_of_mem_head? hc)

private theorem words_spaced (numbers : List (Gap 1 × NumberText)) (after : Gap 0) :
    Text.words (spaced numbers ++ after.chars) = numbers.map (·.2.chars) := by
  induction numbers with
  | nil => simpa [spaced, Text.words, Text.wordsFrom] using Text.words_append_blanks after.blank []
  | cons number numbers ih =>
    obtain ⟨gap, number⟩ := number
    have parts : spaced ((gap, number) :: numbers) ++ after.chars =
        gap.chars ++ (number.chars ++ (spaced numbers ++ after.chars)) := by
      simp [spaced]
    rw [parts, Text.words_blanks_append gap.blank,
      Text.words_append number.ne_nil number.not_blank (head_spaced numbers after), ih]
    rfl

namespace VertexText
variable (v : VertexText)

def numbers : List NumberText := v.lng :: v.lat :: v.others.map Prod.snd

def values : List Float := v.numbers.map NumberText.value

def chars : List Char :=
  v.before.chars ++ (v.lng.chars ++ (spaced ((v.gap, v.lat) :: v.others) ++ v.after.chars))

/-- The third number. -/
def height? : Option Float := v.others.head?.map (·.2.value)

private theorem isSome_height?_iff : v.height?.isSome = true ↔ v.others ≠ [] := by
  simp [height?]

private theorem elevationOf?_values : elevationOf? v.values = v.height? := by
  rw [values, numbers, height?]
  cases v.others <;> rfl

/-- The numbers of a vertex are its words. -/
theorem words_chars : Text.words v.chars = v.numbers.map NumberText.chars := by
  rw [chars, Text.words_blanks_append v.before.blank,
    Text.words_append v.lng.ne_nil v.lng.not_blank (head_spaced _ _), words_spaced]
  simp [numbers]

private theorem wktVertex_chars : wktVertex v.chars = .ok v.values := by
  have read : (v.numbers.map NumberText.chars).mapM Decimal.readFloat = some v.values := by
    refine Json.mapM_eq_some.mpr ?_
    rw [values, List.map_map, List.map_map]
    exact List.map_congr_left fun n _ => n.read
  have two : ¬ v.values.length < 2 := by simp [values, numbers]
  rw [wktVertex, words_chars, read]
  exact if_neg two

private theorem comma_not_mem : ',' ∉ v.chars := by
  have others : ∀ n ∈ (v.gap, v.lat) :: v.others, ',' ∉ n.1.chars ∧ ',' ∉ n.2.chars := fun n _ =>
    ⟨n.1.comma_not_mem, n.2.comma_not_mem⟩
  simp only [chars, spaced, List.mem_append, List.mem_flatMap, not_or, not_exists, not_and]
  exact ⟨v.before.comma_not_mem, v.lng.comma_not_mem, others, v.after.comma_not_mem⟩

end VertexText

/-- A vertex is read off its words. -/
private theorem mapM_wktVertex_of_words {texts texts' : List (List Char)}
    (h : texts.map Text.words = texts'.map Text.words) : texts.mapM wktVertex = texts'.mapM wktVertex := by
  induction texts generalizing texts' with
  | nil =>
    cases texts' with
    | nil => rfl
    | cons t texts' => cases h
  | cons t texts ih =>
    cases texts' with
    | nil => cases h
    | cons t' texts' =>
      obtain ⟨first, others⟩ := List.cons.inj h
      have same : wktVertex t = wktVertex t' := by
        rw [wktVertex, wktVertex, first]
      rw [List.mapM_cons, List.mapM_cons, same, ih others]

private theorem mapM_wktVertex_chars (vertices : List VertexText) :
    (vertices.map VertexText.chars).mapM wktVertex = .ok (vertices.map VertexText.values) := by
  induction vertices with
  | nil => rfl
  | cons v vertices ih =>
    rw [List.map_cons, List.mapM_cons, v.wktVertex_chars, ih]
    rfl

namespace LineText
variable (line : LineText)

def tuples : List (List Float) := line.vertices.map VertexText.values

/-- What stands between the parentheses. -/
def body : List Char := [','].intercalate (line.vertices.map VertexText.chars)

/-- The text without the blanks around it. -/
def core : List Char := line.keyword ++ (line.tag ++ '(' :: (line.body ++ [')']))

def text : String := String.ofList (line.before.chars ++ (line.core ++ line.after.chars))

private theorem isAlpha_keyword : ∀ c ∈ line.keyword, c.isAlpha = true := by
  intro c hc
  have capital : c.toUpper ∈ wktKeyword := line.spelled ▸ List.mem_map_of_mem hc
  rw [← Char.isAlpha_toUpper_eq_isAlpha]
  exact List.all_eq_true.mp (by rfl : wktKeyword.all Char.isAlpha = true) _ capital

private theorem length_keyword : line.keyword.length = wktKeyword.length := by
  rw [← line.spelled, List.length_map]

private theorem startsWith_keyword (rest : List Char) :
    Text.startsWithIgnoringCase wktKeyword (line.keyword ++ rest) = true := by
  rw [Text.startsWithIgnoringCase, ← line.length_keyword, List.take_left, line.spelled]
  rfl

/-- The text begins with a letter. -/
theorem head_keyword (rest : List Char) :
    ∀ c ∈ (line.keyword ++ rest).head?, Text.isBlank c = false := by
  have filled : line.keyword ≠ [] := List.ne_nil_of_length_eq_add_one line.length_keyword
  rw [List.head?_append_of_ne_nil _ filled]
  intro c hc
  exact Decimal.not_blank_of_isLiteral
    (Decimal.isLiteral_of_isAlpha (line.isAlpha_keyword c (List.mem_of_mem_head? hc)))

private theorem trim_text : Text.trim line.text.toList = line.core := by
  rw [text, String.toList_ofList]
  refine Text.trim_between line.before.blank line.after.blank ?_ (line.head_keyword _) ?_
  · simp [core]
  · have last : line.core.getLast? = Option.some ')' := by
      rw [core, ← List.append_assoc, ← List.cons_append, ← List.append_assoc, List.getLast?_concat]
    rw [last]
    rintro c ⟨⟩
    rfl

private theorem decode_text (elevation : Bool) :
    (Geometry.text line.text).decode elevation = ofWkt line.text := by
  have start : Text.trimStart line.text.toList = line.core ++ line.after.chars := by
    rw [text, String.toList_ofList, Text.trimStart, List.dropWhile_append_of_pos line.before.blank]
    apply Text.dropWhile_blank
    rw [core, List.append_assoc]
    exact line.head_keyword _
  have keyword : Text.startsWithIgnoringCase wktKeyword (Text.trimStart line.text.toList) = true := by
    rw [start, core, List.append_assoc]
    exact line.startsWith_keyword _
  exact if_pos keyword

private theorem wktBody_core : wktBody line.core = .ok line.body := by
  have no_mark : '(' ∉ line.keyword ++ line.tag := fun hc =>
    (List.mem_append.mp hc).elim (fun hk => absurd (line.isAlpha_keyword _ hk) (by decide)) line.tagged
  rw [wktBody, core, ← List.append_assoc, Text.splitFirst_append no_mark]
  simp only [Text.splitLast_append List.not_mem_nil]

/-- The pieces of the body have the words of the vertices. -/
theorem words_pieces_body : (Text.pieces ',' (Text.trim line.body)).map Text.words =
    (line.vertices.map VertexText.chars).map Text.words := by
  have solid : Text.isBlank ',' = false := by decide
  have filled : line.vertices.map VertexText.chars ≠ [] := mt List.map_eq_nil_iff.mp line.some
  have commas : ∀ text ∈ line.vertices.map VertexText.chars, ',' ∉ text :=
    List.forall_mem_map.mpr fun v _ => v.comma_not_mem
  rw [Text.map_words_pieces_trim solid, body, Text.pieces_intercalate filled commas]

private theorem trim_body_ne_nil : Text.trim line.body ≠ [] := by
  intro none
  have words := line.words_pieces_body
  rw [none] at words
  cases vertices : line.vertices with
  | nil => exact line.some vertices
  | cons v vs =>
    rw [vertices, List.map_cons, List.map_cons, v.words_chars] at words
    cases words

/-- The layout of a text is of no account. -/
private theorem ofWkt_text : ofWkt line.text = .ok (ofLngLat line.tuples) := by
  have keyword : Text.startsWithIgnoringCase wktKeyword line.core = true := line.startsWith_keyword _
  have some : (Text.trim line.body).isEmpty = false := by simpa using line.trim_body_ne_nil
  have read : (Text.pieces ',' (Text.trim line.body)).mapM wktVertex = .ok line.tuples :=
    (mapM_wktVertex_of_words line.words_pieces_body).trans (mapM_wktVertex_chars line.vertices)
  simp only [ofWkt, line.trim_text, keyword, line.wktBody_core, bind, Except.bind, some, read, if_true,
    Bool.false_eq_true, if_false]
  rfl

private theorem points_ofLngLat : (ofLngLat line.tuples).points =
    line.vertices.map fun v => ⟨v.lat.value, v.lng.value⟩ := by
  have points : (ofLngLat line.tuples).points = line.tuples.filterMap vertexOf? := rfl
  rw [points, tuples, List.filterMap_map, ← List.filterMap_eq_map]
  rfl

private theorem elevations_eq_some_iff (es : List Float) :
    (ofLngLat line.tuples).elevations = Option.some es ↔
    line.vertices.map VertexText.height? = es.map Option.some := by
  have heights : line.tuples.map elevationOf? = line.vertices.map VertexText.height? := by
    rw [tuples, List.map_map]
    exact List.map_congr_left fun v _ => v.elevationOf?_values
  rw [elevations_ofLngLat_eq_some_iff, heights]
  exact and_iff_right (mt List.map_eq_nil_iff.mp line.some)

private theorem isSome_elevations_iff : (ofLngLat line.tuples).elevations.isSome = true ↔
    ∀ v ∈ line.vertices, v.others ≠ [] := by
  rw [Option.isSome_iff_exists]
  simp only [elevations_eq_some_iff, exists_map_eq_some_iff, VertexText.isSome_height?_iff]

end LineText

/-- A line string in well-known text, however its keyword is spelled, whatever tag and blanks it has, is
decoded to what the tuples of its numbers make: a point for every vertex, the second number its latitude,
and elevations if every vertex has a third number, which they are. And whatever a polyline is decoded from,
it has as many elevations as points, if any. -/
theorem decode_lineText :
    (∀ (line : LineText) (elevation : Bool), ∃ p,
      (text line.text).decode elevation = .ok p ∧ (lineString line.tuples).decode elevation = .ok p ∧
      p.points = line.vertices.map (fun v => ⟨v.lat.value, v.lng.value⟩) ∧
      (p.elevations.isSome = true ↔ ∀ v ∈ line.vertices, v.others ≠ []) ∧
      ∀ es, p.elevations = some es → line.vertices.map VertexText.height? = es.map some) ∧
    (∀ (g : Geometry) (elevation : Bool) (p : Polyline), g.decode elevation = .ok p → p.Aligned) ∧
    (∀ (encoded : String) (elevation : Bool) (p : Polyline),
      Polyline.decode encoded elevation = .ok p → p.Aligned) ∧
    (∀ (wkt : String) (p : Polyline), ofWkt wkt = .ok p → p.Aligned) ∧
    ∀ tuples, (ofLngLat tuples).Aligned := by
  refine ⟨fun line elevation => ⟨ofLngLat line.tuples, ?_, rfl, line.points_ofLngLat,
    line.isSome_elevations_iff, fun es => (line.elevations_eq_some_iff es).mp⟩, ?_,
    fun _ _ _ => aligned_of_decode, fun _ _ => aligned_of_ofWkt, aligned_ofLngLat⟩
  · rw [line.decode_text, line.ofWkt_text]
  · intro g elevation p hp
    cases g with
    | text s =>
      rw [decode] at hp
      split at hp
      · exact aligned_of_ofWkt hp
      · exact aligned_of_decode hp
    | lineString tuples =>
      cases hp
      exact aligned_ofLngLat tuples

/-- Two vertices in mixed case, tag and blanks, the second with a fourth number. -/
def ridge : LineText where
  before := ⟨['\t'], by decide, by decide⟩
  keyword := ['L', 'i', 'n', 'e', 'S', 't', 'r', 'i', 'n', 'g']
  spelled := by decide
  tag := [' ', 'Z', ' ']
  tagged := by decide
  vertices := [
    { before := ⟨[' '], by decide, by decide⟩
      lng := ⟨['7'], 7, by decide +kernel⟩
      gap := ⟨[' '], by decide, by decide⟩
      lat := ⟨['5', '0', '.', '5'], 50.5, by decide +kernel⟩
      others := [(⟨['\n'], by decide, by decide⟩, ⟨['1', '2'], 12, by decide +kernel⟩)]
      after := ⟨[], by decide, by decide⟩ },
    { before := ⟨[], by decide, by decide⟩
      lng := ⟨['+', '7', '.', '2', '5'], 7.25, by decide +kernel⟩
      gap := ⟨[' ', ' '], by decide, by decide⟩
      lat := ⟨['5', '1'], 51, by decide +kernel⟩
      others := [(⟨[' '], by decide, by decide⟩, ⟨['1', 'e', '2'], 100, by decide +kernel⟩),
        (⟨[' '], by decide, by decide⟩, ⟨['9'], 9, by decide +kernel⟩)]
      after := ⟨[' '], by decide, by decide⟩ }]
  some := List.cons_ne_nil _ _
  after := ⟨[' '], by decide, by decide⟩

theorem ridge_decode : ∃ p,
    (text "\tLineString Z ( 7 50.5\n12,+7.25  51 1e2 9 ) ").decode false = .ok p ∧
    p.points = [⟨50.5, 7⟩, ⟨51, 7.25⟩] ∧ p.elevations = some [12, 100] ∧ p.Aligned := by
  obtain ⟨p, decoded, -, points, some, heights⟩ := decode_lineText.1 ridge false
  obtain ⟨es, he⟩ := Option.isSome_iff_exists.mp (some.mpr (by simp [ridge]))
  have two : es = [12, 100] := (List.map_inj_right fun _ _ => Option.some.inj).mp (heights es he).symm
  exact ⟨p, decoded, points, two ▸ he, decode_lineText.2.1 _ _ p decoded⟩

end Itinerary.Geometry
