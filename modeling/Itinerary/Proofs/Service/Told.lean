import Itinerary.Proofs.Json.Shape
import Itinerary.Proofs.Text.Runs
import Itinerary.Service.Routing

/-! What the user is told when a routing service answers with the status of an error. -/
namespace Itinerary

namespace RoutingFailure

/-- A hint is a record of a text. -/
def IsHint (j : Json) (text : String) : Prop := Json.IsRecord ["message"] j [[.str text]]

/-- A record of a message and of hints, either of which may be missing. -/
def Describes (j : Json) (message : String) (hints : List String) : Prop :=
  ∃ told hinted, Json.IsRecord ["message", "hints"] j [told, hinted] ∧
    Json.Defaults (fun j text => j = .str text) "" told message ∧
    Json.Defaults (Json.IsList IsHint) [] hinted hints

/-- There are hints or else a message, but nothing to read in them. -/
def Mute (message : String) (hints : List String) : Prop :=
  (hints ≠ [] ∧ ∀ hint ∈ hints, Text.allBlank hint = true) ∨
  (hints = [] ∧ message ≠ "" ∧ Text.allBlank message = true)

private theorem hintOfJson?_eq_some_iff (j : Json) (text : String) :
    hintOfJson? j = some text ↔ IsHint j text := by
  refine (Json.bind_record?_eq_some_iff ["message"] (fun r => r.required 0 Json.str?) text
    (· = [[.str text]]) ?makes ?once j).trans exists_eq_right
  case makes =>
    intro values r length once slots
    obtain ⟨told, rfl⟩ := List.length_eq_one_iff.mp length
    rw [Json.Record.required_eq_some_iff Json.str?_eq_some_iff once slots rfl]
    simp
  case once => simp

private theorem describes_iff {message : String} {hints : List String} (j : Json) :
    ((j.record? ["message", "hints"]).bind fun r => do
      return (← r.defaulted 0 "" Json.str?, ← r.defaulted 1 [] (Json.list? hintOfJson?))) =
        some (message, hints) ↔ Describes j message hints := by
  refine (Json.bind_record?_eq_some_iff ["message", "hints"]
    (fun r => do return (← r.defaulted 0 "" Json.str?, ← r.defaulted 1 [] (Json.list? hintOfJson?)))
    (message, hints)
    (fun values => ∃ told hinted, values = [told, hinted] ∧
      Json.Defaults (fun j text => j = .str text) "" told message ∧
      Json.Defaults (Json.IsList IsHint) [] hinted hints)
    ?makes ?once j).trans ⟨?_, ?_⟩
  case makes =>
    intro values r length once slots
    obtain ⟨told, hinted, rfl⟩ := List.length_eq_two.mp length
    have told_iff : r.defaulted 0 "" Json.str? = some message ↔
        Json.Defaults (fun j text => j = .str text) "" told message :=
      Json.Record.defaulted_eq_some_iff Json.str?_eq_some_iff once slots rfl "" message
    have hinted_iff : r.defaulted 1 [] (Json.list? hintOfJson?) = some hints ↔
        Json.Defaults (Json.IsList IsHint) [] hinted hints :=
      Json.Record.defaulted_eq_some_iff (Json.list?_eq_some_iff hintOfJson?_eq_some_iff) once slots rfl
        [] hints
    simp [← told_iff, ← hinted_iff, Option.bind_eq_some_iff]
  case once =>
    rintro _ ⟨told, hinted, rfl, message₀, hints₀⟩
    simp [message₀.length_le, hints₀.length_le]
  · rintro ⟨_, shape, told, hinted, rfl, parts⟩
    exact ⟨told, hinted, shape, parts⟩
  · rintro ⟨told, hinted, shape, parts⟩
    exact ⟨_, shape, told, hinted, rfl, parts⟩

private theorem allBlank_userMessage_iff (status : Nat) (message : String) (hints : List String) :
    Text.allBlank (service status message hints).userMessage = true ↔ Mute message hints := by
  rw [userMessage, Mute]
  cases hints with
  | nil =>
    have something : Text.allBlank unavailable = false := by decide
    by_cases none : message = ""
    · simp [none, something]
    · simp [none]
  | cons hint hints => simp [Text.allBlank_intercalate]

end RoutingFailure

namespace RoutingService
open RoutingFailure
variable {status : Nat} {body message : String} {hints : List String}

/-- What the body of an error says of it. -/
def described? (body : String) : Option (String × List String) := do
  let r ← (← Json.read body).record? ["message", "hints"]
  return (← r.defaulted 0 "" Json.str?, ← r.defaulted 1 [] (Json.list? hintOfJson?))

/-- The body is that of an error with this message and these hints. -/
def Described (body message : String) (hints : List String) : Prop :=
  ∃ j, Json.read body = some j ∧ Describes j message hints

private theorem failure_eq (status : Nat) (body : String) : failure status body =
    match described? body with
    | some (message, hints) => .service status message hints
    | none => .service status (Text.trimmed body) [] := by
  rw [failure, described?]
  cases Json.read body with
  | none => rfl
  | some j =>
    cases hr : j.record? ["message", "hints"] with
    | none => simp [hr]
    | some r =>
      cases hm : r.defaulted 0 "" Json.str? <;>
        cases hh : r.defaulted 1 [] (Json.list? hintOfJson?) <;> simp [hr, hm, hh]

private theorem described?_eq_some_iff :
    described? body = some (message, hints) ↔ Described body message hints := by
  rw [described?]
  exact Option.bind_eq_some_iff.trans (exists_congr fun j => and_congr_right fun _ => describes_iff j)

private theorem result_of_error_status (h : ¬ (200 ≤ status ∧ status < 300)) (body : String) :
    result (.answered status body) = .error (failure status body) := if_neg h

/-- With the status of an error, whatever the body, the request fails as one that the service refused, and
with this status. The message and the hints are those that the body describes; if it is of another shape, its
text is the message. What the user is told of it has nothing but blanks in it exactly if the body describes
hints that are all blank, or no hints and a message that is not empty but blank. -/
theorem told_of_error_status (h : ¬ (200 ≤ status ∧ status < 300)) (body : String) : ∃ message hints,
    result (.answered status body) = .error (.service status message hints) ∧
    (Described body message hints ∨
      (∀ message hints, ¬ Described body message hints) ∧ message = Text.trimmed body ∧ hints = []) ∧
    (Text.allBlank (RoutingFailure.service status message hints).userMessage = true ↔
      Described body message hints ∧ Mute message hints) := by
  rw [result_of_error_status h, failure_eq]
  cases hd : described? body with
  | some said =>
    obtain ⟨message, hints⟩ := said
    have described := described?_eq_some_iff.mp hd
    refine ⟨message, hints, rfl, .inl described, ?_⟩
    rw [allBlank_userMessage_iff, and_iff_right described]
  | none =>
    have undescribed (message : String) (hints : List String) : ¬ Described body message hints := by
      intro described
      rw [described?_eq_some_iff.mpr described] at hd
      cases hd
    refine ⟨Text.trimmed body, [], rfl, .inr ⟨undescribed, rfl, rfl⟩, ?_⟩
    rw [allBlank_userMessage_iff]
    constructor
    · rintro (⟨some, -⟩ | ⟨-, some, blank⟩)
      · exact absurd rfl some
      · exact absurd ((Text.allBlank_trimmed_iff body).mp blank) some
    · exact fun mute => absurd mute.1 (undescribed _ _)

/-- A single hint without text keeps from the user even that there is a failure; a plain text is told. -/
theorem emptyHint_told_nothing :
    let hinted := "\x7b\"hints\":[\x7b\"message\":\"\"\x7d]\x7d"
    ¬ (200 ≤ 400 ∧ 400 < 300) ∧ (∃ message hints,
      result (.answered 400 hinted) = .error (.service 400 message hints) ∧
      Described hinted message hints ∧ Mute message hints ∧
      (RoutingFailure.service 400 message hints).userMessage = "") ∧
    ¬ (200 ≤ 502 ∧ 502 < 300) ∧ ∃ message hints,
      result (.answered 502 "Bad Gateway\n") = .error (.service 502 message hints) ∧
      (RoutingFailure.service 502 message hints).userMessage = "Bad Gateway" ∧
      ¬ Text.allBlank (RoutingFailure.service 502 message hints).userMessage = true := by
  intro hinted
  have refused : ¬ (200 ≤ 400 ∧ 400 < 300) := by decide
  have unreachable : ¬ (200 ≤ 502 ∧ 502 < 300) := by decide
  have empty : failure 400 hinted = .service 400 "" [""] := by decide +kernel
  have plain : failure 502 "Bad Gateway\n" = .service 502 "Bad Gateway" [] := by decide +kernel
  obtain ⟨message, hints, failed, -, blank⟩ := told_of_error_status refused hinted
  obtain ⟨message', hints', failed', -, blank'⟩ := told_of_error_status unreachable "Bad Gateway\n"
  cases empty.symm.trans (Except.error.inj ((result_of_error_status refused hinted).symm.trans failed))
  cases plain.symm.trans (Except.error.inj ((result_of_error_status unreachable _).symm.trans failed'))
  obtain ⟨described, mute⟩ := blank.mp (by decide)
  exact ⟨refused, ⟨_, _, failed, described, mute, by decide⟩, unreachable, _, _, failed', by decide, by decide⟩

end RoutingService
end Itinerary
