import Itinerary.Proofs.Link.Pairs
import Itinerary.Proofs.Text.Split
import Itinerary.Proofs.Url.Query

/-! A query on its own, and the same query behind a host. -/
namespace Itinerary

/-- What begins with a question mark has no scheme. -/
private theorem Url.parse_mark (cs : List Char) : parse (String.ofList ('?' :: cs)) = .error .relative := by
  have visible : ∀ c ∈ ['?'], isOuterBlank c = false := by
    intro c hc
    rw [List.mem_singleton.mp hc]
    rfl
  have cleared : cleaned ('?' :: cs) = '?' :: cleanedEnd cs :=
    cleaned_append (List.cons_ne_nil _ _) visible cs
  rw [parse, String.toList_ofList, cleared]
  rfl

namespace Link

/-- A query behind the host to which bare queries are taken to belong. -/
def whole (query : String) : String := base ++ "?" ++ query

/-- The pairs of a query that stands behind a host. -/
def queryPairs (query : String) : List Url.Form.Pair :=
  let written := (Url.cleanedEnd query.toList).takeWhile (· != '#')
  Url.Form.decode (Url.percentEncode (Url.inQuerySet true) written)

private theorem whole_eq (query : String) :
    whole query = String.ofList (base.toList ++ '?' :: query.toList) := by
  apply String.toList_inj.mp
  simp only [whole, String.toList_append, String.toList_ofList, List.append_assoc]
  rfl

private theorem whole_holds (query : String) : "://".toList <:+: (whole query).toList := by
  simp only [whole_eq, String.toList_ofList]
  exact ⟨"http".toList, "localhost/".toList ++ '?' :: query.toList, rfl⟩

private theorem address_of_scheme {text : String} (h : "://".toList <:+: text.toList) : address text = text :=
  if_pos ((Text.holds_iff _ _).mpr h)

/-- A query behind a host can always be read, whatever its values hold. -/
private theorem reads_whole (query : String) : Reads (whole query) (queryPairs query) := by
  refine ⟨.ofTail .web ('/' :: '?' :: Url.cleanedEnd query.toList), ?_, rfl⟩
  rw [address_of_scheme (whole_holds query), whole_eq]
  exact Url.parse_behind_base query.toList

theorem ofText_whole (query : String) (default : Profile) :
    ofText (whole query) default = ofPairs (queryPairs query) default := (reads_whole query).ofText default

/-- Pairs are never found fault with as a URL is. -/
private theorem ofPairs_ne_invalidUrl (pairs : List Url.Form.Pair) (default : Profile) (reason : String) :
    ofPairs pairs default ≠ .error (.invalidUrl reason) := by
  rw [ofPairs_eq]
  cases pairs.find? Setting.unreadable with
  | some p => simp
  | none =>
    dsimp only
    rw [Draft.finish]
    split <;> simp

section
variable {query : String}

private theorem bare_toList : ("?" ++ query).toList = '?' :: query.toList := String.toList_append

private theorem scheme_bare_iff :
    "://".toList <:+: ("?" ++ query).toList ↔ "://".toList <:+: query.toList := by
  rw [bare_toList, List.infix_cons_iff]
  constructor
  · rintro (front | inside)
    · cases (List.cons_prefix_cons.mp front).1
    · exact inside
  · exact .inr

private theorem ofText_bare_of_scheme (h : "://".toList <:+: query.toList) (default : Profile) :
    ofText ("?" ++ query) default = .error (.invalidUrl "relative URL without a base") := by
  have chars : "?" ++ query = String.ofList ('?' :: query.toList) :=
    String.toList_inj.mp (by rw [bare_toList, String.toList_ofList])
  rw [ofText, address_of_scheme (scheme_bare_iff.mpr h), chars, Url.parse_mark]
  rfl

private theorem address_bare (hq : query.toList.head? ≠ some '?') (h : ¬ "://".toList <:+: query.toList) :
    address ("?" ++ query) = whole query := by
  have none : Text.holds [':', '/', '/'] ("?" ++ query).toList = false :=
    Bool.eq_false_iff.mpr fun some => h (scheme_bare_iff.mp ((Text.holds_iff _ _).mp some))
  have stripped : ("?" ++ query).toList.dropWhile (· == '?') = query.toList := by
    rw [bare_toList]
    refine (List.dropWhile_cons_of_pos rfl).trans ?_
    cases hc : query.toList with
    | nil => rfl
    | cons c cs =>
      rw [hc] at hq
      exact List.dropWhile_cons_of_neg fun mark => hq (congrArg some (beq_iff_eq.mp mark))
  rw [address, none, if_neg Bool.false_ne_true, stripped, String.ofList_toList]
  rfl

end

/-- A query that does not begin with a question mark of its own is read alike after one and behind a host,
unless it holds what parts a scheme from a host, be it in a value. Then it is read behind a host only, and
after a question mark it is taken for a URL without a scheme. -/
theorem ofText_bare_eq_whole_iff {query : String} (hq : query.toList.head? ≠ some '?') (default : Profile) :
    (ofText ("?" ++ query) default = ofText (whole query) default ↔ ¬ "://".toList <:+: query.toList) ∧
    ("://".toList <:+: query.toList →
      ofText ("?" ++ query) default = .error (.invalidUrl "relative URL without a base") ∧
      ofText (whole query) default = ofPairs (queryPairs query) default) := by
  refine ⟨⟨fun same inside => ?_, fun outside => ?_⟩, fun inside =>
    ⟨ofText_bare_of_scheme inside default, ofText_whole query default⟩⟩
  · rw [ofText_bare_of_scheme inside, ofText_whole] at same
    exact ofPairs_ne_invalidUrl _ _ _ same.symm
  · rw [ofText, ofText, address_bare hq outside, address_of_scheme (whole_holds query)]

/-- An inn that is sought by its own address is found behind a host only. -/
theorem inn_unread_bare :
    "point=https://example.com/inn&point=Bonn".toList.head? ≠ some '?' ∧
    ofText ("?" ++ "point=https://example.com/inn&point=Bonn") .car =
      .error (.invalidUrl "relative URL without a base") ∧
    (ofText (whole "point=https://example.com/inn&point=Bonn") .car).toOption.map Link.points =
      some ["https://example.com/inn", "Bonn"] := by
  have front : "point=https://example.com/inn&point=Bonn".toList.head? ≠ some '?' := by decide +kernel
  have inside : "://".toList <:+: "point=https://example.com/inn&point=Bonn".toList :=
    (Text.holds_iff _ _).mp (by decide +kernel)
  obtain ⟨bare, behind⟩ := (ofText_bare_eq_whole_iff front .car).2 inside
  refine ⟨front, bare, ?_⟩
  rw [behind]
  decide +kernel

end Link
end Itinerary
