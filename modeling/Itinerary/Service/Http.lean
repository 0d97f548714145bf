import Itinerary.Url.Basic

/-! Requests to services and their replies. -/
namespace Itinerary

inductive Method where
  | get
  | post
deriving DecidableEq, Repr

def Method.name : Method → String
  | .get => "GET"
  | .post => "POST"

structure HttpRequest where
  method : Method
  target : String
  body : String := ""
deriving DecidableEq, Repr

/-- The status and the body that came back, as text or as octets, or the reason why nothing did. -/
inductive Reply (Body : Type) where
  | answered (status : Nat) (body : Body)
  | failed (reason : String)
deriving DecidableEq, Repr

namespace Url

/-- The address of one of a service's resources, below the service's own address. -/
def below (base resource : String) : Except UrlError Url :=
  let base := (base.toList.reverse.dropWhile (· == '/')).reverse
  parse (String.ofList base ++ "/" ++ resource)

end Url
end Itinerary
