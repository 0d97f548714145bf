import Itinerary.Proofs.Url.Form
import Itinerary.Link.Basic
import Itinerary.Proofs.Text.Runs

/-! A query made of pairs is read as those pairs where it is put behind a host. -/
namespace Itinerary

namespace Url

private theorem Form.isWritten.not_inQuerySet {c : Char} (h : isWritten c = true) :
    inQuerySet true c = false := by
  obtain ⟨low, high⟩ := isWritten.bounds h
  have control : isControl c = false := by
    rw [isControl, decide_eq_false (by omega), decide_eq_false (by omega)]
    rfl
  rw [inQuerySet, control, beq_false_of_ne (isWritten.ne h rfl), beq_false_of_ne (isWritten.ne h rfl),
    beq_false_of_ne (isWritten.ne h rfl), beq_false_of_ne (isWritten.ne h rfl),
    beq_false_of_ne (isWritten.ne h rfl), beq_false_of_ne (isWritten.ne h rfl)]
  rfl

private theorem percentEncode_of_free {inSet : Char → Bool} {cs : List Char} (h : ∀ c ∈ cs, inSet c = false) :
    percentEncode inSet cs = cs := by
  rw [percentEncode]
  induction cs with
  | nil => rfl
  | cons c cs ih =>
    rw [List.flatMap_cons, h c List.mem_cons_self, ih fun d hd => h d (List.mem_cons_of_mem _ hd)]
    rfl

/-- What is left of a URL's end: blanks after it do not count, tabs and line ends nowhere. -/
def cleanedEnd (cs : List Char) : List Char :=
  (cs.reverse.dropWhile isOuterBlank).reverse.filter fun c => c != '\t' && c != '\n' && c != '\r'

private theorem filter_of_visible {cs : List Char} (h : ∀ c ∈ cs, isOuterBlank c = false) :
    (cs.filter fun c => c != '\t' && c != '\n' && c != '\r') = cs := by
  apply List.filter_eq_self.mpr
  intro c hc
  have visible := h c hc
  simp only [Bool.and_eq_true, bne_iff_ne, ne_eq]
  refine ⟨⟨?_, ?_⟩, ?_⟩ <;>
  · rintro rfl
    cases visible

private theorem cleanedEnd_of_visible {cs : List Char} (h : ∀ c ∈ cs, isOuterBlank c = false) :
    cleanedEnd cs = cs := by
  have back : ∀ c ∈ cs.reverse, isOuterBlank c = false := fun c hc => h c (List.mem_reverse.mp hc)
  rw [cleanedEnd, Text.dropWhile_of_none back, List.reverse_reverse, filter_of_visible h]

/-- Of a URL that begins with something visible, only what follows that is cleaned. -/
theorem cleaned_append {front : List Char} (hf : front ≠ []) (h : ∀ c ∈ front, isOuterBlank c = false)
    (cs : List Char) : cleaned (front ++ cs) = front ++ cleanedEnd cs := by
  have start : (front ++ cs).dropWhile isOuterBlank = front ++ cs := by
    obtain ⟨c, front, rfl⟩ := List.exists_cons_of_ne_nil hf
    exact List.dropWhile_cons_of_neg (by rw [h c List.mem_cons_self]; exact Bool.false_ne_true)
  have back : front.reverse.dropWhile isOuterBlank = front.reverse :=
    Text.dropWhile_of_none fun c hc => h c (List.mem_reverse.mp hc)
  have stop : (cs.reverse ++ front.reverse).dropWhile isOuterBlank =
      cs.reverse.dropWhile isOuterBlank ++ front.reverse := by
    rw [List.dropWhile_append, back]
    split
    · rename_i none
      rw [List.isEmpty_iff.mp none, List.nil_append]
    · rfl
  rw [cleaned, start, List.reverse_append, stop, List.reverse_append, List.reverse_reverse, List.filter_append,
    filter_of_visible h, cleanedEnd]

/-- Whatever stands behind a host as its query can be read. -/
theorem parse_behind_base (query : List Char) : parse (String.ofList (Link.base.toList ++ '?' :: query)) =
    .ok (ofTail .web ('/' :: '?' :: cleanedEnd query)) := by
  have visible : ∀ c ∈ Link.base.toList ++ ['?'], isOuterBlank c = false := by
    have all : (Link.base.toList ++ ['?']).all (!isOuterBlank ·) = true := by decide
    exact fun c hc => (Bool.not_eq_true' _).mp (List.all_eq_true.mp all c hc)
  have cleared : cleaned (Link.base.toList ++ '?' :: query) = Link.base.toList ++ '?' :: cleanedEnd query := by
    rw [List.append_cons, cleaned_append (by decide) visible, List.append_assoc, List.singleton_append]
  rw [parse, String.toList_ofList, cleared]
  rfl

/-- The query stands unchanged in what is read of an address of the web. -/
private theorem parse_written {query : List Char} (h : ∀ c ∈ query, Form.isWritten c = true) :
    ∃ url, parse (String.ofList (Link.base.toList ++ '?' :: query)) = .ok url ∧ url.query = some query := by
  have visible : ∀ c ∈ query, isOuterBlank c = false := fun c hc =>
    decide_eq_false (by have := (Form.isWritten.bounds (h c hc)).1; omega)
  refine ⟨_, parse_behind_base query, ?_⟩
  rw [cleanedEnd_of_visible visible]
  have fragment : query.takeWhile (· != '#') = query :=
    List.takeWhile_eq_self_iff.mpr fun c hc => bne_iff_ne.mpr (Form.isWritten.ne (h c hc) rfl)
  have unchanged : percentEncode (inQuerySet true) query = query :=
    percentEncode_of_free fun c hc => Form.isWritten.not_inQuerySet (h c hc)
  change some (percentEncode (inQuerySet true) (query.takeWhile (· != '#'))) = some query
  rw [fragment, unchanged]

end Url

namespace Link

/-- The text is read as these pairs. -/
def Reads (text : String) (pairs : List Url.Form.Pair) : Prop :=
  ∃ url, Url.parse (address text) = .ok url ∧ url.pairs = pairs

theorem Reads.ofText {text : String} {pairs : List Url.Form.Pair} (h : Reads text pairs) (default : Profile) :
    ofText text default = ofPairs pairs default := by
  obtain ⟨url, parsed, rfl⟩ := h
  rw [Link.ofText, parsed]

/-- A query made of pairs has no scheme and no question mark of its own. -/
private theorem address_encode (pairs : List Url.Form.Pair) :
    address (String.ofList (Url.Form.encode pairs)) =
      String.ofList (base.toList ++ '?' :: Url.Form.encode pairs) := by
  have written := Url.Form.isWritten_encode pairs
  have scheme : Text.holds [':', '/', '/'] (Url.Form.encode pairs) = false :=
    Text.holds_of_not_mem List.mem_cons_self fun hc => Url.Form.isWritten.ne (written _ hc) rfl rfl
  have mark : (Url.Form.encode pairs).dropWhile (· == '?') = Url.Form.encode pairs :=
    Text.dropWhile_of_none fun c hc => beq_false_of_ne (Url.Form.isWritten.ne (written c hc) rfl)
  rw [address, String.toList_ofList, scheme, if_neg Bool.false_ne_true, mark]
  apply String.toList_inj.mp
  simp only [String.toList_append, String.toList_ofList, List.append_assoc]
  rfl

/-- Every list of pairs is what some text is read as. -/
theorem reads_encode (pairs : List Url.Form.Pair) : Reads (String.ofList (Url.Form.encode pairs)) pairs := by
  obtain ⟨url, parsed, query⟩ := Url.parse_written (Url.Form.isWritten_encode pairs)
  refine ⟨url, ?_, ?_⟩
  · rw [address_encode, parsed]
  · rw [Url.pairs, query]
    exact Url.Form.decode_encode pairs

theorem ofText_encode (pairs : List Url.Form.Pair) (default : Profile) :
    ofText (String.ofList (Url.Form.encode pairs)) default = ofPairs pairs default :=
  (reads_encode pairs).ofText default

end Link
end Itinerary
