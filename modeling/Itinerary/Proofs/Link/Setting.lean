import Itinerary.Link.Basic
import Itinerary.Proofs.Decimal.Reading

/-! What the settings of a link are read back as. -/
namespace Itinerary.Link.Setting

theorem flag?_flag (b : Bool) : flag? (Url.Form.flag b) = some b := by
  cases b <;> decide

theorem count?_count (n : UInt32) : count? (Url.Form.count n) = some n := by
  rw [count?, Url.Form.count, String.toList_ofList, Text.trim_toDigits, Decimal.readCount_toDigits]

theorem number?_plain (x : Float) : number? (Decimal.plain x) = some x := by
  rw [number?, Decimal.trim_plain, Decimal.readFloat_plain]

private theorem units_ofUseMiles (u : UnitSystem) : UnitSystem.ofUseMiles u.useMiles = u := by
  cases u <;> rfl

/-- What has been read of a pair's value, or the error that names the pair. -/
def orInvalid {α : Type} (key value : String) : Option α → Except LinkError α
  | some a => .ok a
  | none => .error (.invalidParameter key value)

private theorem orInvalid_map {α β : Type} (key value : String) (f : α → β) (read : Option α) :
    orInvalid key value (read.map f) = (orInvalid key value read).map f := by
  cases read <;> rfl

theorem orInvalid_eq_ok {α : Type} {key value : String} {read : Option α} {a : α} :
    orInvalid key value read = .ok a ↔ read = some a := by
  cases read with
  | none => simp [orInvalid]
  | some b => simp [orInvalid]

/-- The profile that is found under a profile's name. -/
def rereadProfile (p : Profile) : Except LinkError Profile :=
  orInvalid "profile" p.name (Profile.ofName? p.name)

/-- The instant that is read from an instant's text. Unfolding it would run the reader on the text. -/
@[irreducible] def rereadInstant (t : Instant) : Except LinkError Instant :=
  orInvalid "pt.earliest_departure_time" t.zulu (Instant.parse? t.zulu)

/-- What a setting is read back as. All but profiles and instants stay as they are. -/
def reread : Setting → Except LinkError Setting
  | .profile p => (rereadProfile p).map .profile
  | .departure t => (rereadInstant t).map .departure
  | s => .ok s

private theorem ofPair_of_reader {k v : String} {read : String → Option Setting} (h : reader? k = some read) :
    ofPair (k, v) = (orInvalid k v (read v)).map some := by
  rw [ofPair, h]
  dsimp only
  cases read v <;> rfl

theorem ofPair_pair (s : Setting) : ofPair s.pair = s.reread.map some := by
  cases s with
  | profile p =>
    exact (ofPair_of_reader rfl).trans (congrArg (Except.map some) (orInvalid_map _ _ _ _))
  | departure t =>
    refine (ofPair_of_reader rfl).trans (congrArg (Except.map some) ?_)
    change _ = (rereadInstant t).map Setting.departure
    unfold rereadInstant
    exact orInvalid_map _ _ _ _
  | units u =>
    refine (ofPair_of_reader rfl).trans ?_
    simp only [value, flag?_flag, Option.map_some, units_ofUseMiles]
    rfl
  | _ =>
    refine (ofPair_of_reader rfl).trans ?_
    simp only [value, flag?_flag, count?_count, number?_plain, Option.map_some]
    rfl

end Itinerary.Link.Setting
