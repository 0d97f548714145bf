import Itinerary.Text.Split
import Itinerary.Url.Percent

/-! Which hosts a URL may name. -/
namespace Itinerary

inductive UrlError where
  | relative
  | emptyHost
  | invalidPort
  | invalidIpv4
  | invalidIpv6
  | invalidName
  | invalidCharacter
deriving DecidableEq, Repr

def UrlError.message : UrlError → String
  | .relative => "relative URL without a base"
  | .emptyHost => "empty host"
  | .invalidPort => "invalid port number"
  | .invalidIpv4 => "invalid IPv4 address"
  | .invalidIpv6 => "invalid IPv6 address"
  | .invalidName => "invalid international domain name"
  | .invalidCharacter => "invalid domain character"

namespace Url.Host

def isHex (c : Char) : Bool :=
  c.isDigit || ('a' ≤ c && c ≤ 'f') || ('A' ≤ c && c ≤ 'F')

def hexNumber (cs : List Char) : Nat :=
  cs.foldl (fun n c =>
    n * 16 + (if c.isDigit then c.toNat - 48 else c.toLower.toNat - 87)) 0

/-- One number of an IPv4 address: hexadecimal after `0x`, octal after another zero. -/
def ipv4Number : List Char → Option Nat
  | [] => none
  | '0' :: x :: digits =>
    if x = 'x' ∨ x = 'X' then (if digits.all isHex then some (hexNumber digits) else none)
    else if (x :: digits).all fun c => '0' ≤ c && c ≤ '7' then
      some (Nat.ofDigitChars 8 (x :: digits) 0)
    else none
  | digits => if digits.all Char.isDigit then some (Nat.ofDigitChars 10 digits 0) else none

/-- The labels of a name, the empty one after a last point left out. -/
def labels (name : List Char) : List (List Char) :=
  let all := Text.pieces '.' name
  if 1 < all.length ∧ all.getLast? = some [] then all.dropLast else all

/-- A name whose last label is a number has to be an address. -/
def endsInNumber (name : List Char) : Bool :=
  match (labels name).getLast? with
  | some label => (!label.isEmpty && label.all Char.isDigit) || (ipv4Number label).isSome
  | none => false

/-- At most four numbers, of which the last fills the octets that the others leave. -/
def isIpv4 (name : List Char) : Bool :=
  match (labels name).mapM ipv4Number with
  | none => false
  | some numbers =>
    match numbers.reverse with
    | [] => false
    | last :: others =>
      numbers.length ≤ 4 && others.all (· ≤ 255) && last < Nat.pow 256 (4 - others.length)

/-- A decimal number up to 255 without zeros in front. -/
def isOctet (cs : List Char) : Bool :=
  !cs.isEmpty && cs.all Char.isDigit && (cs.length == 1 || cs.head? != some '0') &&
    Nat.ofDigitChars 10 cs 0 ≤ 255

def isDottedQuad (cs : List Char) : Bool :=
  let parts := Text.pieces '.' cs
  parts.length == 4 && parts.all isOctet

def isGroup (cs : List Char) : Bool := 1 ≤ cs.length && cs.length ≤ 4 && cs.all isHex

/-- How many groups a part of an IPv6 address has; only at its end, and if `last`, it may have an
IPv4 address, which counts for two. -/
def groupCount (last : Bool) (cs : List Char) : Option Nat :=
  if cs.isEmpty then some 0
  else
    let groups := Text.pieces ':' cs
    if groups.all isGroup then some groups.length
    else if last && groups.dropLast.all isGroup && (groups.getLast?.any isDottedQuad) then
      some (groups.length + 1)
    else none

/-- What stands before and after the first two colons in a row. -/
def splitAtGap : List Char → Option (List Char × List Char)
  | ':' :: ':' :: cs => some ([], cs)
  | c :: cs => (splitAtGap cs).map fun (before, after) => (c :: before, after)
  | [] => none

/-- Eight groups, or fewer around a gap. -/
def isIpv6 (cs : List Char) : Bool :=
  match splitAtGap cs with
  | none => !cs.isEmpty && groupCount true cs == some 8
  | some (before, after) =>
    match groupCount false before, groupCount true after with
    | some m, some n => m + n ≤ 7
    | _, _ => false

/-- Characters of ASCII that no name may have. -/
def isForbidden (c : Char) : Bool :=
  c.toNat ≤ 0x20 || c.toNat == 0x7F || "#%/:<>?@[\\]^|".toList.contains c

/-- The brackets of an IPv6 address have to match. -/
def checkBracketed (cs : List Char) : Except UrlError Unit :=
  if cs.getLast? = some ']' ∧ isIpv6 (cs.drop 1).dropLast then .ok () else .error .invalidIpv6

/-- The host of an address of the web: an IP address, or a name after percent decoding. -/
def check (cs : List Char) : Except UrlError Unit :=
  if cs.head? = some '[' then checkBracketed cs
  else
    let name := Text.Utf8.decode (percentDecode (Text.Utf8.encode cs))
    if name.any fun c => isForbidden c || c == Text.Utf8.replacement then .error .invalidName
    else if endsInNumber name then (if isIpv4 name then .ok () else .error .invalidIpv4)
    else .ok ()

/-- The host under any other scheme is not looked into. -/
def checkOther (cs : List Char) : Except UrlError Unit :=
  if cs.head? = some '[' then checkBracketed cs
  else if cs.any fun c => c == '\x00' || "\t\n\r #/:<>?@[\\]^|".toList.contains c then
    .error .invalidCharacter
  else .ok ()

end Url.Host
end Itinerary
