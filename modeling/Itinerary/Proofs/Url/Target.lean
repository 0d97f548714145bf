import Itinerary.Proofs.Url.Form
import Itinerary.Service.Http

/-! Where the query stands in what a request line names. -/
namespace Itinerary.Url

theorem Form.append_append (query : List Char) (pairs more : List Pair) :
    append (append query pairs) more = append query (pairs ++ more) :=
  List.foldl_append.symm

section
variable {c : Char} {inSet : Char → Bool} (escaped : inSet c = true) (free : ∀ b, c ∉ escape b)
include escaped free

/-- What is escaped is not left, unless it is needed for escaping. -/
theorem not_mem_percentEncode (cs : List Char) : c ∉ percentEncode inSet cs := by
  rw [percentEncode, List.mem_flatMap]
  rintro ⟨d, -, hc⟩
  split at hc
  · obtain ⟨b, -, hb⟩ := List.mem_flatMap.mp hc
    exact free b hb
  · rename_i kept
    rw [List.mem_singleton.mp hc] at escaped
    exact kept escaped

end

private theorem mark_not_mem_escape (b : UInt8) : '?' ∉ escape b := by
  obtain ⟨⟨b⟩⟩ := b
  revert b
  decide +kernel

/-- Resolving leaves segments that were there, or empty ones. -/
private theorem resolveDots_forall {P : List Char → Prop} (empty : P []) {kept segments : List (List Char)}
    (hk : ∀ s ∈ kept, P s) (hs : ∀ s ∈ segments, P s) : ∀ s ∈ resolveDots kept segments, P s := by
  have back : ∀ s ∈ kept.drop 1, P s := fun s h => hk s (List.mem_of_mem_drop h)
  induction segments generalizing kept with
  | nil => exact fun s h => hk s (List.mem_reverse.mp h)
  | cons segment rest ih =>
    obtain ⟨first, others⟩ := List.forall_mem_cons.mp hs
    have next {kept : List (List Char)} (hk : ∀ s ∈ kept, P s) : ∀ s ∈ resolveDots kept rest, P s :=
      ih hk others fun s h => hk s (List.mem_of_mem_drop h)
    rw [resolveDots]
    split
    · apply next
      split
      · exact List.forall_mem_cons.mpr ⟨empty, back⟩
      · exact back
    · split
      · apply next
        split
        · exact List.forall_mem_cons.mpr ⟨empty, hk⟩
        · exact hk
      · exact next (List.forall_mem_cons.mpr ⟨first, hk⟩)

private theorem mark_not_mem_normalizedPath (cs : List Char) : '?' ∉ normalizedPath cs := by
  rw [normalizedPath, joinSegments, List.mem_flatMap]
  rintro ⟨segment, member, hc⟩
  have free : '?' ∉ segment := by
    refine resolveDots_forall (P := ('?' ∉ ·)) List.not_mem_nil (List.forall_mem_nil _) ?_ segment member
    exact List.forall_mem_map.mpr fun piece _ => not_mem_percentEncode rfl mark_not_mem_escape piece
  rcases List.mem_cons.mp hc with mark | hc
  · cases mark
  · exact free hc

private theorem mark_not_mem_path (scheme : Scheme) (cs : List Char) : '?' ∉ (ofTail scheme cs).path := by
  rw [ofTail]
  dsimp only
  split
  · exact not_mem_percentEncode rfl mark_not_mem_escape _
  · exact mark_not_mem_normalizedPath _

private theorem query_ofTail {cs : List Char} (h : '?' ∉ cs) (scheme : Scheme) :
    (ofTail scheme cs).query = none := by
  rw [ofTail]
  dsimp only
  split
  · rename_i rest opened
    have mark : '?' ∈ cs.dropWhile (!endsPath ·) := opened ▸ List.mem_cons_self
    exact absurd ((List.dropWhile_sublist _).mem mark) h
  · rfl

section
variable {scheme : Scheme} {cs : List Char} {u : Url}

/-- What is made of a URL's tail, whatever is checked before it. -/
private theorem eq_of_check {check : Except UrlError Unit} {tail : List Char}
    (h : (check >>= fun _ => pure (ofTail scheme tail)) = .ok u) : u = ofTail scheme tail := by
  cases check with
  | error e => cases h
  | ok _ =>
    cases h
    rfl

private theorem exists_tail_of_parseAfterScheme (h : parseAfterScheme scheme cs = .ok u) :
    ∃ tail, tail.Sublist cs ∧ u = ofTail scheme tail := by
  cases scheme with
  | web => exact ⟨_, (List.dropWhile_sublist _).trans (List.dropWhile_sublist _), eq_of_check h⟩
  | file =>
    rw [parseAfterScheme] at h
    dsimp only at h
    split at h
    · split at h
      · exact ⟨_, (List.drop_sublist _ _).trans (List.drop_sublist _ _), eq_of_check h⟩
      · cases h
        exact ⟨_, (List.drop_sublist _ _).trans (List.drop_sublist _ _), rfl⟩
    · cases h
      exact ⟨cs, List.Sublist.refl cs, rfl⟩
  | other =>
    rw [parseAfterScheme] at h
    dsimp only at h
    split at h
    · exact ⟨_, (List.dropWhile_sublist _).trans (List.drop_sublist _ _), eq_of_check h⟩
    · cases h
      exact ⟨cs, List.Sublist.refl cs, rfl⟩

private theorem takeScheme_sublist {rest : List Char} (h : takeScheme cs = some (scheme, rest)) :
    rest.Sublist cs := by
  rw [takeScheme] at h
  split at h
  · rename_i after colon
    split at h
    · cases h
      exact (List.sublist_cons_self ':' rest).trans (colon ▸ List.dropWhile_sublist _)
    · cases h
  · cases h

private theorem cleaned_sublist (cs : List Char) : (cleaned cs).Sublist cs := by
  refine List.filter_sublist.trans ?_
  rw [← List.reverse_sublist, List.reverse_reverse]
  exact (List.dropWhile_sublist _).trans (List.reverse_sublist.mpr (List.dropWhile_sublist _))

private theorem exists_tail_of_parse {text : String} (h : parse text = .ok u) :
    ∃ scheme tail, tail.Sublist text.toList ∧ u = ofTail scheme tail := by
  rw [parse] at h
  split at h
  · rename_i scheme rest taken
    obtain ⟨tail, part, rfl⟩ := exists_tail_of_parseAfterScheme h
    exact ⟨scheme, tail, part.trans ((takeScheme_sublist taken).trans (cleaned_sublist _)), rfl⟩
  · cases h

end

/-- The address of a resource has a path without a question mark, and no query if the base has none. -/
theorem of_below {base resource : String} {u : Url} (h : below base resource = .ok u)
    (hb : '?' ∉ base.toList) (hr : '?' ∉ resource.toList) : '?' ∉ u.path ∧ u.query = none := by
  rw [below] at h
  obtain ⟨scheme, tail, part, rfl⟩ := exists_tail_of_parse h
  refine ⟨mark_not_mem_path scheme tail, query_ofTail (fun hc => ?_) scheme⟩
  have text := part.mem hc
  rw [String.toList_append, String.toList_append, String.toList_ofList, List.mem_append,
    List.mem_append, List.mem_reverse] at text
  rcases text with (front | slash) | back
  · exact hb (List.mem_reverse.mp ((List.dropWhile_sublist _).mem front))
  · exact absurd slash (by decide)
  · exact hr back

/-- The query of a target is what stands behind its first question mark. -/
theorem splitFirst_target {u : Url} (path : '?' ∉ u.path) {query : List Char} (h : u.query = some query) :
    Text.splitFirst '?' u.target.toList = some (u.path, query) := by
  rw [target, String.toList_ofList, h]
  exact Text.splitFirst_append path query

end Itinerary.Url
