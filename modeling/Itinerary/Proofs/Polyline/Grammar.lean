import Itinerary.Proofs.Polyline.Encoded

/-! The form of encoded polylines: numbers of at most thirteen octets, as many as make whole vertices.
Main statement: which texts are decoded, and where the others fail. -/
namespace Itinerary.Polyline

namespace Varint

/-- A group that another one follows. -/
def Follows (b : UInt8) : Prop := 95 ≤ b.toNat ∧ b.toNat ≤ 126

/-- The last group of a number. -/
def Ends (b : UInt8) : Prop := 63 ≤ b.toNat ∧ b.toNat < 95

instance (b : UInt8) : Decidable (Follows b) := inferInstanceAs (Decidable (_ ∧ _))

/-- The octets of one number: thirteen at most, and the last one and no other below 95. -/
def IsNumber (bs : List UInt8) : Prop := ∃ groups last,
  bs = groups ++ [last] ∧ groups.length ≤ 12 ∧ (∀ b ∈ groups, Follows b) ∧ Ends last

/-- Nothing, or a number that is not yet complete. -/
def Begun (bs : List UInt8) : Prop := bs.length ≤ 13 ∧ ∀ b ∈ bs, Follows b

/-- What comes behind the groups belongs to no number: it is not printable, or one too many. -/
def Stray (groups : List UInt8) (b : UInt8) : Prop :=
  Begun groups ∧ (¬ Printable b ∨ groups.length = 13)

/-- The octets are those of the numbers, and the rest. -/
structure Split (bs : List UInt8) (numbers : List (List UInt8)) (rest : List UInt8) : Prop where
  octets : bs = numbers.flatten ++ rest
  numbers : ∀ number ∈ numbers, IsNumber number

private theorem Follows.printable {b : UInt8} (h : Follows b) : Printable b :=
  ⟨Nat.le_trans (by decide) h.1, h.2⟩

private theorem IsNumber.ne_nil {bs : List UInt8} (h : IsNumber bs) : bs ≠ [] := by
  obtain ⟨groups, last, rfl, _⟩ := h
  exact List.append_ne_nil_of_right_ne_nil _ (List.cons_ne_nil _ _)

theorem IsNumber.printable {bs : List UInt8} (h : IsNumber bs) : ∀ b ∈ bs, Printable b := by
  obtain ⟨groups, last, rfl, -, follow, low, high⟩ := h
  refine List.forall_mem_append.mpr ⟨fun b hb => (follow b hb).printable, ?_⟩
  exact List.forall_mem_singleton.mpr ⟨low, by omega⟩

private theorem Split.nil (bs : List UInt8) : Split bs [] bs where
  octets := rfl
  numbers _ h := absurd h List.not_mem_nil

private theorem Split.cons {number bs rest : List UInt8} {numbers : List (List UInt8)}
    (first : IsNumber number)
    (h : Split bs numbers rest) : Split (number ++ bs) (number :: numbers) rest where
  octets := by rw [h.octets, List.flatten_cons, List.append_assoc]
  numbers := List.forall_mem_cons.mpr ⟨first, h.numbers⟩

/-- The groups of a number that thirteen octets can hold. -/
private theorem groups_isNumber {n : Nat} (h : n < 32 ^ 13) : IsNumber (groups n) := by
  have parts : ∃ front last, groups n = front ++ [last] ∧ (∀ b ∈ front, Follows b) ∧ Ends last := by
    clear h
    induction n using groups.induct with
    | case1 n small =>
      refine ⟨[], _, by rw [groups, if_pos small]; rfl, fun b hb => absurd hb List.not_mem_nil, ?_⟩
      rw [Ends, toNat_octet (by omega)]
      omega
    | case2 n large ih =>
      obtain ⟨front, last, split, follow, ends⟩ := ih
      have first : Follows (UInt8.ofNat (n % 32 + 32 + 63)) := by
        rw [Follows, toNat_octet (by omega)]
        omega
      refine ⟨_ :: front, last, by rw [groups, if_neg large, split]; rfl, ?_, ends⟩
      exact List.forall_mem_cons.mpr ⟨first, follow⟩
  obtain ⟨front, last, split, follow, ends⟩ := parts
  have few := length_groups_le (by decide) h
  rw [split, List.length_append, List.length_singleton] at few
  exact ⟨front, last, split, Nat.le_of_succ_le_succ few, follow, ends⟩

theorem write_isNumber {v : Int} (h : HalfWord v) : IsNumber (write v) := by
  rw [write_of_halfWord h]
  refine groups_isNumber ?_
  have bounds := zigzag_bounds h
  omega

/-- What octets begin with: a number, or less than one, or groups with a stray octet behind. -/
theorem front_cases (bs : List UInt8) :
    (∃ number rest, IsNumber number ∧ bs = number ++ rest) ∨ Begun bs ∨
      ∃ groups b rest, Stray groups b ∧ bs = groups ++ b :: rest := by
  have run : ∀ b ∈ bs.takeWhile (Follows ·), Follows b :=
    fun b hb => of_decide_eq_true (List.all_eq_true.mp List.all_takeWhile b hb)
  have whole : bs.takeWhile (Follows ·) ++ bs.dropWhile (Follows ·) = bs := List.takeWhile_append_dropWhile
  rcases Nat.lt_or_ge 12 (bs.takeWhile (Follows ·)).length with long | short
  · have thirteen : ((bs.takeWhile (Follows ·)).take 13).length = 13 := List.length_take_of_le long
    have begun : Begun ((bs.takeWhile (Follows ·)).take 13) :=
      ⟨Nat.le_of_eq thirteen, fun b hb => run b (List.mem_of_mem_take hb)⟩
    have parts : (bs.takeWhile (Follows ·)).take 13 ++
        ((bs.takeWhile (Follows ·)).drop 13 ++ bs.dropWhile (Follows ·)) = bs := by
      rw [← List.append_assoc, List.take_append_drop, whole]
    cases rest : (bs.takeWhile (Follows ·)).drop 13 ++ bs.dropWhile (Follows ·) with
    | nil =>
      rw [rest, List.append_nil] at parts
      exact .inr (.inl (parts ▸ begun))
    | cons b rest' =>
      rw [rest] at parts
      exact .inr (.inr ⟨_, b, rest', ⟨begun, .inr thirteen⟩, parts.symm⟩)
  · cases rest : bs.dropWhile (Follows ·) with
    | nil =>
      rw [rest, List.append_nil] at whole
      exact .inr (.inl (whole ▸ ⟨Nat.le_succ_of_le short, run⟩))
    | cons b rest' =>
      have stop : ¬ Follows b := by
        have kept := List.head_dropWhile_not (Follows ·) (rest ▸ List.cons_ne_nil b rest')
        simpa [rest] using kept
      rw [rest] at whole
      by_cases printable : Printable b
      · have last : Ends b := ⟨printable.1, Nat.lt_of_not_le fun above => stop ⟨above, printable.2⟩⟩
        refine .inl ⟨_, rest', ⟨_, b, rfl, short, run, last⟩, ?_⟩
        rw [List.append_assoc, List.singleton_append, whole]
      · exact .inr (.inr ⟨_, b, rest', ⟨⟨Nat.le_succ_of_le short, run⟩, .inl printable⟩, whole.symm⟩)

/-- All octets split into numbers up to what begins no further number. -/
private theorem exists_split (bs : List UInt8) : ∃ numbers,
    (∃ rest, Split bs numbers rest ∧ Begun rest) ∨
      ∃ groups b rest, Split bs numbers (groups ++ b :: rest) ∧ Stray groups b := by
  induction hn : bs.length using Nat.strongRecOn generalizing bs with
  | ind n ih =>
    rcases front_cases bs with ⟨number, rest, first, rfl⟩ | begun | ⟨groups, b, rest, stray, rfl⟩
    · have shorter : rest.length < n := by
        have := List.length_pos_iff.mpr first.ne_nil
        rw [List.length_append] at hn
        omega
      obtain ⟨numbers, ⟨left, split, begun⟩ | ⟨groups, b, left, split, stray⟩⟩ :=
        ih rest.length shorter rest rfl
      · exact ⟨number :: numbers, .inl ⟨left, split.cons first, begun⟩⟩
      · exact ⟨number :: numbers, .inr ⟨groups, b, left, split.cons first, stray⟩⟩
    · exact ⟨[], .inl ⟨bs, .nil bs, begun⟩⟩
    · exact ⟨[], .inr ⟨groups, b, rest, .nil _, stray⟩⟩

/-- A group that another one follows is read as such, as long as it comes in time. -/
theorem readGroups_follows {b : UInt8} (hb : Follows b) {count : Nat} (hc : count ≤ 12) (offset : Nat)
    (bs : List UInt8) : readGroups offset count (b :: bs) =
      match readGroups (offset + 1) (count + 1) bs with
      | .ok (high, rest) => .ok ((b.toNat - 63) % 32 + 32 * high, rest)
      | .error e => .error e := by
  have more : ¬ b.toNat - 63 < 32 := by
    have := hb.1
    omega
  exact (readGroups_cons hb.printable hc offset bs).trans (if_neg more)

/-- The digits to the base 32 that octets carry. -/
def digits (number : List UInt8) : Nat := Nat.ofDigits 32 (number.map carried)

theorem digits_cons (b : UInt8) (number : List UInt8) :
    digits (b :: number) = carried b + 32 * digits number := Nat.ofDigits_cons

/-- The octets of a number are read as the digits that they carry. -/
private theorem readGroups_number {groups : List UInt8} {last : UInt8} (hg : ∀ b ∈ groups, Follows b)
    (hl : Ends last) {count : Nat} (hc : count + groups.length ≤ 12) (offset : Nat) (rest : List UInt8) :
    readGroups offset count (groups ++ last :: rest) =
      .ok (digits (groups ++ [last]), offset + (groups.length + 1), rest) := by
  induction groups generalizing offset count with
  | nil =>
    obtain ⟨low, high⟩ := hl
    have small : last.toNat - 63 < 32 := by omega
    have printable : Printable last := ⟨low, by omega⟩
    rw [List.nil_append, readGroups_cons printable (Nat.le_of_add_right_le hc), if_pos small, digits,
      List.nil_append, List.map_singleton, Nat.ofDigits_singleton, carried, Nat.mod_eq_of_lt small]
    rfl
  | cons b groups ih =>
    obtain ⟨first, others⟩ := List.forall_mem_cons.mp hg
    rw [List.length_cons] at hc
    rw [List.cons_append, readGroups_follows first (by omega),
      ih others (show count + 1 + groups.length ≤ 12 by omega) (offset + 1), List.length_cons,
      List.cons_append, digits_cons, Nat.add_right_comm _ 1, Nat.add_assoc offset]
    rfl

/-- Octets that end inside a number are truncated at their end. -/
theorem readGroups_begun {bs : List UInt8} (h : ∀ b ∈ bs, Follows b) {count : Nat}
    (hc : count + bs.length ≤ 13) (offset : Nat) :
    readGroups offset count bs = .error (.truncated (offset + bs.length)) := by
  induction bs generalizing offset count with
  | nil => rfl
  | cons b bs ih =>
    obtain ⟨first, others⟩ := List.forall_mem_cons.mp h
    rw [List.length_cons] at hc
    rw [readGroups_follows first (by omega), ih others (by omega), List.length_cons,
      Nat.add_right_comm, Nat.add_assoc]

theorem readGroups_stray {groups : List UInt8} {b : UInt8} (hg : ∀ b ∈ groups, Follows b) {count : Nat}
    (hc : count + groups.length ≤ 13) (hb : ¬ Printable b ∨ count + groups.length = 13) (offset : Nat)
    (rest : List UInt8) : readGroups offset count (groups ++ b :: rest) =
      .error (.invalidCharacter (offset + groups.length)) := by
  induction groups generalizing offset count with
  | nil =>
    have amiss : b < 63 ∨ 126 < b ∨ 12 < count := by
      simp only [UInt8.lt_iff_toNat_lt, UInt8.reduceToNat]
      rw [Printable, List.length_nil] at hb
      omega
    rw [List.nil_append, readGroups]
    exact if_pos amiss
  | cons c groups ih =>
    obtain ⟨first, others⟩ := List.forall_mem_cons.mp hg
    rw [List.length_cons] at hc hb
    have later : ¬ Printable b ∨ count + 1 + groups.length = 13 := hb.imp_right fun h => by omega
    rw [List.cons_append, readGroups_follows first (by omega), ih others (by omega) later,
      List.length_cons, Nat.add_right_comm, Nat.add_assoc]

/-- Half a word is what is left of a word when its last bit tells the sign. -/
theorem unzigzag_halfWord (n : Int) : HalfWord (unzigzag (wrap n)) := by
  have low : -(2 ^ 63) ≤ wrap n := Int.le_bmod (by decide)
  have high : wrap n < 2 ^ 63 := Int.bmod_lt (by decide)
  rw [unzigzag, HalfWord]
  split <;> omega

/-- The number that the octets of one stand for. -/
def value (number : List UInt8) : Int := unzigzag (wrap (digits number))

theorem value_halfWord (number : List UInt8) : HalfWord (value number) := unzigzag_halfWord _

/-- A number is read whatever comes behind it. -/
theorem IsNumber.read_append {number : List UInt8} (h : IsNumber number) (offset : Nat)
    (rest : List UInt8) : read offset (number ++ rest) = .ok (value number, offset + number.length, rest) := by
  obtain ⟨groups, last, rfl, few, follow, ends⟩ := h
  have all := readGroups_number follow ends (by rw [Nat.zero_add]; exact few) offset rest
  rw [read, List.append_assoc, List.singleton_append, all, List.length_append, List.length_singleton,
    value]

/-- The numbers are read one by one, and then the rest. -/
theorem readAll_numbers {numbers : List (List UInt8)} (h : ∀ number ∈ numbers, IsNumber number)
    (offset : Nat) (rest : List UInt8) : ∃ vs : List Int, vs.length = numbers.length ∧
      readAll offset (numbers.flatten ++ rest) =
        (readAll (offset + numbers.flatten.length) rest).map (vs ++ ·) := by
  induction numbers generalizing offset with
  | nil =>
    refine ⟨[], rfl, ?_⟩
    rw [List.flatten_nil, List.nil_append, List.length_nil, Nat.add_zero]
    cases readAll offset rest <;> rfl
  | cons number numbers ih =>
    obtain ⟨first, others⟩ := List.forall_mem_cons.mp h
    obtain ⟨vs, length, hvs⟩ := ih others (offset + number.length)
    refine ⟨value number :: vs, congrArg Nat.succ length, ?_⟩
    rw [List.flatten_cons, List.append_assoc,
      readAll_of_ok (first.read_append offset (numbers.flatten ++ rest)), hvs, List.length_append,
      Nat.add_assoc]
    cases readAll (offset + (number.length + numbers.flatten.length)) rest <;> rfl

private theorem readAll_begun {bs : List UInt8} (h : Begun bs) (hb : bs ≠ []) (offset : Nat) :
    readAll offset bs = .error (.truncated (offset + bs.length)) := by
  refine readAll_of_error hb ?_
  rw [read, readGroups_begun h.2 (by rw [Nat.zero_add]; exact h.1)]

private theorem readAll_stray {groups : List UInt8} {b : UInt8} (h : Stray groups b) (offset : Nat)
    (rest : List UInt8) : readAll offset (groups ++ b :: rest) =
      .error (.invalidCharacter (offset + groups.length)) := by
  refine readAll_of_error (List.append_ne_nil_of_right_ne_nil _ (List.cons_ne_nil _ _)) ?_
  rw [read, readGroups_stray h.1.2 (by rw [Nat.zero_add]; exact h.1.1) (by rw [Nat.zero_add]; exact h.2)]

end Varint

open Varint

/-- Numbers make vertices if none is left over. -/
theorem length_verticesFrom (elevation : Bool) (v : Vertex) (ns : List Int) :
    (verticesFrom elevation v ns).map List.length =
      if arity elevation ∣ ns.length then some (ns.length / arity elevation) else none := by
  fun_induction verticesFrom elevation v ns with
  | case1 => simp
  | case2 v lat lng rest next ih =>
    cases hv : verticesFrom false next rest <;> simp [hv, arity] at ih ⊢ <;> omega
  | case3 v lat lng height rest next ih =>
    cases hv : verticesFrom true next rest <;> simp [hv, arity] at ih ⊢ <;> omega
  | case4 ns elevation v none two three =>
    -- one number is left over, or two where three make a vertex
    have leftover : ¬ arity elevation ∣ ns.length := by
      cases elevation with
      | false =>
        rcases ns with _ | ⟨lat, _ | ⟨lng, rest⟩⟩
        · exact absurd rfl none
        · exact (by decide : ¬ 2 ∣ 1)
        · exact (two lat lng rest rfl rfl).elim
      | true =>
        rcases ns with _ | ⟨lat, _ | ⟨lng, _ | ⟨height, rest⟩⟩⟩
        · exact absurd rfl none
        · exact (by decide : ¬ 3 ∣ 1)
        · exact (by decide : ¬ 3 ∣ 2)
        · exact (three lat lng height rest rfl rfl).elim
    rw [if_neg leftover]
    rfl

private theorem length_octetsOf (text : String) : (octetsOf text).length = text.utf8ByteSize := by
  have octets : (octetsOf text).toByteArray = text.toByteArray :=
    congrArg String.toByteArray String.ofList_toList
  rw [String.utf8ByteSize, ← octets, List.size_toByteArray]

section
variable {text : String} {elevation : Bool} {numbers : List (List UInt8)}

/-- Whole numbers are decoded if they make vertices, as many as there are numbers for. -/
theorem decode_of_numbers (fits : Fits text elevation) (h : Split (octetsOf text) numbers [])
    (whole : arity elevation ∣ numbers.length) : ∃ p, decode text elevation = .ok p ∧
      p.points.length = numbers.length / arity elevation ∧
      p.elevations.map List.length = if elevation then some p.points.length else none := by
  obtain ⟨vs, length, read⟩ := readAll_numbers h.numbers 0 []
  have lengths := length_verticesFrom elevation .origin vs
  rw [length, if_pos whole, Option.map_eq_some_iff] at lengths
  obtain ⟨vertices, summed, count⟩ := lengths
  rw [← h.octets, readAll_nil] at read
  rw [Except.map, List.append_nil] at read
  refine ⟨ofVertices elevation vertices, decode_eq_ok_iff.mpr ⟨fits, _, _, read, summed, rfl⟩, ?_, ?_⟩
  · rw [ofVertices, List.length_map, count]
  · cases elevation <;> simp [ofVertices]

/-- Octets that end inside a number, or with too few numbers for a vertex, are truncated at their end. -/
theorem decode_of_begun (fits : Fits text elevation) {rest : List UInt8}
    (h : Split (octetsOf text) numbers rest) (begun : Begun rest)
    (short : rest = [] → ¬ arity elevation ∣ numbers.length) :
    decode text elevation = .error (.truncated text.utf8ByteSize) := by
  obtain ⟨vs, length, read⟩ := readAll_numbers h.numbers 0 rest
  rw [← h.octets, Nat.zero_add] at read
  rw [decode_of_fits fits, assembled, read, ← length_octetsOf]
  by_cases none : rest = []
  · have lengths := length_verticesFrom elevation .origin vs
    rw [length, if_neg (short none), Option.map_eq_none_iff] at lengths
    rw [none, readAll_nil, Except.map, List.append_nil]
    dsimp only
    rw [lengths, Nat.zero_add]
    rfl
  · rw [readAll_begun begun none, h.octets, List.length_append]
    rfl

private theorem decode_of_stray (fits : Fits text elevation) {groups rest : List UInt8} {b : UInt8}
    (h : Split (octetsOf text) numbers (groups ++ b :: rest)) (stray : Stray groups b) :
    decode text elevation = .error (.invalidCharacter (numbers.flatten.length + groups.length)) := by
  obtain ⟨vs, length, read⟩ := readAll_numbers h.numbers 0 (groups ++ b :: rest)
  rw [← h.octets, Nat.zero_add, readAll_stray stray] at read
  rw [decode_of_fits fits, assembled, read]
  rfl

end

/-- Every text is decoded, or is truncated, or has a stray octet, or has a sum that is no word. -/
theorem decode_cases (text : String) (elevation : Bool) :
    (Fits text elevation ∧ ∃ numbers,
      (Split (octetsOf text) numbers [] ∧ arity elevation ∣ numbers.length ∧
        ∃ p, decode text elevation = .ok p) ∨
      (∃ rest, (Split (octetsOf text) numbers rest ∧ Begun rest ∧
        (rest = [] → ¬ arity elevation ∣ numbers.length)) ∧
        decode text elevation = .error (.truncated text.utf8ByteSize)) ∨
      ∃ groups b rest, (Split (octetsOf text) numbers (groups ++ b :: rest) ∧ Stray groups b) ∧
        decode text elevation = .error (.invalidCharacter (numbers.flatten.length + groups.length))) ∨
    (¬ Fits text elevation ∧ decode text elevation = .error .overflow) := by
  by_cases fits : Fits text elevation
  swap
  · exact .inr ⟨fits, decode_of_not_fits fits⟩
  refine .inl ⟨fits, ?_⟩
  obtain ⟨numbers, ⟨rest, split, begun⟩ | ⟨groups, b, rest, split, stray⟩⟩ := exists_split (octetsOf text)
  · by_cases whole : rest = [] ∧ arity elevation ∣ numbers.length
    · obtain ⟨rfl, whole⟩ := whole
      obtain ⟨p, decoded, _⟩ := decode_of_numbers fits split whole
      exact ⟨numbers, .inl ⟨split, whole, p, decoded⟩⟩
    · have short := not_and.mp whole
      exact ⟨numbers, .inr (.inl ⟨rest, ⟨split, begun, short⟩, decode_of_begun fits split begun short⟩)⟩
  · exact ⟨numbers, .inr (.inr ⟨groups, b, rest, ⟨split, stray⟩, decode_of_stray fits split stray⟩)⟩

theorem exists_decode_iff (text : String) (elevation : Bool) : (∃ p, decode text elevation = .ok p) ↔
    Fits text elevation ∧
      ∃ numbers, Split (octetsOf text) numbers [] ∧ arity elevation ∣ numbers.length := by
  constructor
  · rintro ⟨p, hp⟩
    obtain ⟨fits, numbers, ⟨split, whole, _⟩ | ⟨_, _, other⟩ | ⟨_, _, _, _, other⟩⟩ | ⟨_, other⟩ :=
      decode_cases text elevation
    · exact ⟨fits, numbers, split, whole⟩
    all_goals
      rw [other] at hp
      cases hp
  · rintro ⟨fits, numbers, split, whole⟩
    obtain ⟨p, decoded, _⟩ := decode_of_numbers fits split whole
    exact ⟨p, decoded⟩

private theorem lengths_of_decode {text : String} {elevation : Bool} {p : Polyline}
    {numbers : List (List UInt8)}
    (hp : decode text elevation = .ok p) (split : Split (octetsOf text) numbers []) :
    p.points.length = numbers.length / arity elevation ∧
      p.elevations.map List.length = if elevation then some p.points.length else none := by
  obtain ⟨fits, _⟩ := decode_eq_ok_iff.mp hp
  by_cases whole : arity elevation ∣ numbers.length
  · obtain ⟨q, decoded, lengths⟩ := decode_of_numbers fits split whole
    rw [decoded] at hp
    cases hp
    exact lengths
  · have begun : Begun [] := ⟨Nat.zero_le _, fun _ h => absurd h List.not_mem_nil⟩
    rw [decode_of_begun fits split begun fun _ => whole] at hp
    cases hp

private theorem decode_eq_truncated_iff (text : String) (elevation : Bool) (offset : Nat) :
    decode text elevation = .error (.truncated offset) ↔ Fits text elevation ∧
      offset = text.utf8ByteSize ∧ ∃ numbers rest, Split (octetsOf text) numbers rest ∧ Begun rest ∧
        (rest = [] → ¬ arity elevation ∣ numbers.length) := by
  constructor
  · intro he
    obtain ⟨fits, numbers, ⟨_, _, p, other⟩ | ⟨rest, inside, decoded⟩ | ⟨_, _, _, _, other⟩⟩ |
      ⟨_, other⟩ := decode_cases text elevation
    case inl.inr.inl =>
      rw [decoded] at he
      cases he
      exact ⟨fits, rfl, numbers, rest, inside⟩
    all_goals
      rw [other] at he
      cases he
  · rintro ⟨fits, rfl, numbers, rest, split, begun, short⟩
    exact decode_of_begun fits split begun short

private theorem decode_eq_invalidCharacter_iff (text : String) (elevation : Bool) (offset : Nat) :
    decode text elevation = .error (.invalidCharacter offset) ↔ Fits text elevation ∧
      ∃ numbers groups b rest, Split (octetsOf text) numbers (groups ++ b :: rest) ∧ Stray groups b ∧
        offset = numbers.flatten.length + groups.length := by
  constructor
  · intro he
    obtain ⟨fits, numbers, ⟨_, _, p, other⟩ | ⟨_, _, other⟩ |
      ⟨groups, b, rest, ⟨split, stray⟩, decoded⟩⟩ | ⟨_, other⟩ := decode_cases text elevation
    case inl.inr.inr =>
      rw [decoded] at he
      cases he
      exact ⟨fits, numbers, groups, b, rest, split, stray, rfl⟩
    all_goals
      rw [other] at he
      cases he
  · rintro ⟨fits, numbers, groups, b, rest, split, stray, rfl⟩
    exact decode_of_stray fits split stray

theorem decode_eq_overflow_iff (text : String) (elevation : Bool) :
    decode text elevation = .error .overflow ↔ ¬ Fits text elevation := by
  refine ⟨fun he fits => ?_, decode_of_not_fits⟩
  obtain ⟨_, _, ⟨_, _, p, other⟩ | ⟨_, _, other⟩ | ⟨_, _, _, _, other⟩⟩ | ⟨beyond, _⟩ :=
    decode_cases text elevation
  case inr => exact beyond fits
  all_goals
    rw [other] at he
    cases he

/-- As long as every sum is a word, exactly the texts are decoded whose octets split into numbers of whole
vertices, and there are as many points as the numbers make, and as many elevations if there are to be any.
A text whose octets end inside a number or a vertex is truncated at its end. Any other has an octet that is
not printable or the fourteenth of a number, and the first such is named. Nothing else is ever wrong with
it. A text with a sum that is no word gives neither a polyline nor one of these errors. -/
theorem decode_by_grammar (text : String) (elevation : Bool) :
    ((∃ p, decode text elevation = .ok p) ↔ Fits text elevation ∧
      ∃ numbers, Split (octetsOf text) numbers [] ∧ arity elevation ∣ numbers.length) ∧
    (∀ p numbers, decode text elevation = .ok p → Split (octetsOf text) numbers [] →
      p.points.length = numbers.length / arity elevation ∧
      p.elevations.map List.length = if elevation then some p.points.length else none) ∧
    (∀ offset, decode text elevation = .error (.truncated offset) ↔ Fits text elevation ∧
      offset = text.utf8ByteSize ∧ ∃ numbers rest, Split (octetsOf text) numbers rest ∧ Begun rest ∧
        (rest = [] → ¬ arity elevation ∣ numbers.length)) ∧
    (∀ offset, decode text elevation = .error (.invalidCharacter offset) ↔ Fits text elevation ∧
      ∃ numbers groups b rest, Split (octetsOf text) numbers (groups ++ b :: rest) ∧ Stray groups b ∧
        offset = numbers.flatten.length + groups.length) ∧
    (∀ offset, decode text elevation = .error (.invalidCharacter offset) → offset < text.utf8ByteSize) ∧
    (decode text elevation = .error .overflow ↔ ¬ Fits text elevation) ∧
    ∀ reason, decode text elevation ≠ .error (.invalidWkt reason) := by
  refine ⟨exists_decode_iff text elevation, fun p numbers => lengths_of_decode,
    decode_eq_truncated_iff text elevation, decode_eq_invalidCharacter_iff text elevation, ?_,
    decode_eq_overflow_iff text elevation, ?_⟩
  · intro offset he
    obtain ⟨-, numbers, groups, b, rest, split, -, rfl⟩ :=
      (decode_eq_invalidCharacter_iff text elevation offset).mp he
    rw [← length_octetsOf, split.octets, List.length_append, List.length_append, List.length_cons]
    omega
  · intro reason he
    obtain ⟨_, _, ⟨_, _, p, other⟩ | ⟨_, _, other⟩ | ⟨_, _, _, _, other⟩⟩ | ⟨_, other⟩ :=
      decode_cases text elevation
    all_goals
      rw [other] at he
      cases he

end Itinerary.Polyline
