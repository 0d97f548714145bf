import Itinerary.Proofs.Text.Split
import Itinerary.Proofs.Text.Utf8
import Itinerary.Url.Form

/-! Pairs are read back from the form of a URL query. -/
namespace Itinerary.Url.Form

/-- How a plus is read. -/
def unplus (b : UInt8) : UInt8 := if b = 43 then 32 else b

/-- Printable ASCII, without the characters that mean something to a URL or to a query. -/
def isSafe (c : Char) : Bool :=
  0x21 ≤ c.toNat && c.toNat ≤ 0x7E &&
    ['"', '#', '&', '\'', '/', ':', '<', '=', '>', '?'].all (· != c)

private theorem isSafe_encodeOctet (b : UInt8) : (encodeOctet b).all isSafe = true := by
  obtain ⟨⟨b⟩⟩ := b
  revert b
  decide +kernel

/-- The octet of a hexadecimal digit. -/
def hexOctet (n : Nat) : UInt8 := UInt8.ofNat (hexChar n).toNat

/-- An octet is written as itself, or by its two digits after a percent sign. -/
private theorem octets_encodeOctet (b : UInt8) :
    (b ≠ 37 ∧ (Text.Utf8.encode (encodeOctet b)).map unplus = [b]) ∨
    ((Text.Utf8.encode (encodeOctet b)).map unplus =
        [37, hexOctet (b.toNat / 16), hexOctet (b.toNat % 16)] ∧
      hexValue (hexOctet (b.toNat / 16)) = some (b / 16) ∧
      hexValue (hexOctet (b.toNat % 16)) = some (b % 16) ∧ b / 16 * 16 + b % 16 = b) := by
  obtain ⟨⟨b⟩⟩ := b
  revert b
  decide +kernel

private theorem percentDecode_cons {b : UInt8} (hb : b ≠ 37) (rest : List UInt8) :
    percentDecode (b :: rest) = b :: percentDecode rest := by
  have plain : (b == 37) = false := beq_eq_false_iff_ne.mpr hb
  rcases rest with _ | ⟨c, _ | ⟨d, rest⟩⟩
  · rfl
  · rfl
  · rw [percentDecode, plain]

private theorem percentDecode_escaped {h l high low : UInt8} (hh : hexValue h = some high)
    (hl : hexValue l = some low) (rest : List UInt8) :
    percentDecode (37 :: h :: l :: rest) = (high * 16 + low) :: percentDecode rest := by
  rw [percentDecode, hh, hl]
  rfl

private theorem percentDecode_encodeOctets (bs : List UInt8) :
    percentDecode ((Text.Utf8.encode (bs.flatMap encodeOctet)).map unplus) = bs := by
  induction bs with
  | nil => rfl
  | cons b bs ih =>
    have parted : Text.Utf8.encode ((b :: bs).flatMap encodeOctet) =
        Text.Utf8.encode (encodeOctet b) ++ Text.Utf8.encode (bs.flatMap encodeOctet) := by
      rw [List.flatMap_cons, Text.Utf8.encode, List.flatMap_append]
      rfl
    rw [parted, List.map_append]
    rcases octets_encodeOctet b with ⟨plain, he⟩ | ⟨he, high, low, whole⟩ <;> rw [he]
    · exact (percentDecode_cons plain _).trans (congrArg (b :: ·) ih)
    · refine (percentDecode_escaped high low _).trans ?_
      rw [whole]
      exact congrArg (b :: ·) ih

private theorem decodeText_encodeText (s : String) : decodeText (encodeText s) = s := by
  have octets := percentDecode_encodeOctets (Text.Utf8.encode s.toList)
  rw [decodeText, encodeText]
  change String.ofList (Text.Utf8.decode (percentDecode (List.map unplus _))) = s
  rw [octets, Text.Utf8.decode_encode, String.ofList_toList]

private theorem isSafe_encodeText (s : String) : ∀ c ∈ encodeText s, isSafe c = true := by
  intro c hc
  obtain ⟨b, _, hb⟩ := List.mem_flatMap.mp hc
  exact List.all_eq_true.mp (isSafe_encodeOctet b) c hb

private theorem not_mem_encodeText {c : Char} (h : isSafe c = false) (s : String) : c ∉ encodeText s := by
  intro hc
  rw [isSafe_encodeText s c hc] at h
  cases h

private theorem decodePair_encodePair (p : Pair) : decodePair (encodePair p) = p := by
  rw [decodePair, encodePair, Text.splitFirst_append (not_mem_encodeText (by decide) p.1)]
  dsimp only
  rw [decodeText_encodeText, decodeText_encodeText]

private theorem encodePair_ne_nil (p : Pair) : encodePair p ≠ [] :=
  List.append_ne_nil_of_right_ne_nil _ (List.cons_ne_nil _ _)

private theorem pieces_encodePair (p : Pair) : Text.pieces '&' (encodePair p) = [encodePair p] := by
  apply Text.pieces_of_not_mem
  rw [encodePair, List.mem_append, List.mem_cons]
  rintro (hc | hc | hc)
  · exact not_mem_encodeText (by decide) p.1 hc
  · cases hc
  · exact not_mem_encodeText (by decide) p.2 hc

private theorem pieces_append {query : List Char} (hq : query ≠ []) (pairs : List Pair) :
    Text.pieces '&' (append query pairs) = Text.pieces '&' query ++ pairs.map encodePair := by
  induction pairs generalizing query with
  | nil => exact (List.append_nil _).symm
  | cons p pairs ih =>
    have started : query.isEmpty = false := by simpa using hq
    have next : append query (p :: pairs) = append (query ++ '&' :: encodePair p) pairs := by
      rw [append, List.foldl_cons, started]
      rfl
    rw [next, ih (List.append_ne_nil_of_left_ne_nil hq _), Text.pieces_append, pieces_encodePair,
      List.append_assoc]
    rfl

/-- Pairs are read back from the query that was made of them. -/
theorem decode_encode (pairs : List Pair) : decode (encode pairs) = pairs := by
  cases pairs with
  | nil => rfl
  | cons p pairs =>
    have first : encode (p :: pairs) = append (encodePair p) pairs := rfl
    have kept : ((p :: pairs).map encodePair).filter (!·.isEmpty) = (p :: pairs).map encodePair := by
      apply List.filter_eq_self.mpr
      intro cs hcs
      obtain ⟨q, _, rfl⟩ := List.mem_map.mp hcs
      simpa using encodePair_ne_nil q
    rw [decode, first, pieces_append (encodePair_ne_nil p), pieces_encodePair, List.singleton_append,
      ← List.map_cons, kept, List.map_map]
    exact List.map_id'' decodePair_encodePair _

/-- The characters that a query is made of. -/
def isWritten (c : Char) : Bool := isSafe c || c == '=' || c == '&'

private theorem isWritten_encodePair (p : Pair) : ∀ c ∈ encodePair p, isWritten c = true := by
  intro c hc
  rw [isWritten, Bool.or_assoc]
  rcases List.mem_append.mp hc with hc | hc
  · rw [isSafe_encodeText p.1 c hc, Bool.true_or]
  · rcases List.mem_cons.mp hc with rfl | hc
    · rfl
    · rw [isSafe_encodeText p.2 c hc, Bool.true_or]

private theorem isWritten_append {query : List Char} (hq : ∀ c ∈ query, isWritten c = true)
    (pairs : List Pair) : ∀ c ∈ append query pairs, isWritten c = true := by
  induction pairs generalizing query with
  | nil => exact hq
  | cons p pairs ih =>
    rw [append, List.foldl_cons]
    apply ih
    intro c hc
    split at hc
    · exact isWritten_encodePair p c hc
    · rcases List.mem_append.mp hc with hc | hc
      · exact hq c hc
      · rcases List.mem_cons.mp hc with rfl | hc
        · rfl
        · exact isWritten_encodePair p c hc

theorem isWritten_encode (pairs : List Pair) : ∀ c ∈ encode pairs, isWritten c = true :=
  isWritten_append (List.forall_mem_nil _) pairs

section
variable {c : Char} (h : isWritten c = true)
include h

theorem isWritten.ne {d : Char} (hd : isWritten d = false) : c ≠ d := by
  rintro rfl
  rw [h] at hd
  cases hd

/-- The octets between the blank and the last printable one. -/
theorem isWritten.bounds : 0x21 ≤ c.toNat ∧ c.toNat ≤ 0x7E := by
  simp only [isWritten, isSafe, Bool.or_eq_true, Bool.and_eq_true, decide_eq_true_eq, beq_iff_eq] at h
  rcases h with (⟨bounds, _⟩ | rfl) | rfl
  · exact bounds
  · decide
  · decide

end

end Itinerary.Url.Form
