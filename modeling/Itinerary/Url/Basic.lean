import Itinerary.Url.Form
import Itinerary.Url.Host

/-! URLs, as far as a request names them: the path and the query. Scheme, user and host are read
and judged. -/
namespace Itinerary

structure Url where
  path : List Char
  query : Option (List Char)
deriving DecidableEq, Repr

namespace Url

/-- How a scheme lets its URLs be read: addresses of the web, files, and all others. -/
inductive Scheme where
  | web
  | file
  | other
deriving DecidableEq, Repr

def Scheme.ofName (name : List Char) : Scheme :=
  match String.ofList name with
  | "http" | "https" | "ws" | "wss" | "ftp" => .web
  | "file" => .file
  | _ => .other

def isSchemeChar (c : Char) : Bool := c.isAlphanum || c == '+' || c == '-' || c == '.'

/-- A letter, then letters, digits and a few marks, up to a colon. -/
def takeScheme (cs : List Char) : Option (Scheme × List Char) :=
  let name := cs.takeWhile isSchemeChar
  match cs.dropWhile isSchemeChar with
  | ':' :: rest =>
    if name.head?.any Char.isAlpha then some (.ofName (name.map Char.toLower), rest) else none
  | _ => none

/-- A backslash is a slash except under other schemes. -/
def isSlash (scheme : Scheme) (c : Char) : Bool := c == '/' || (c == '\\' && scheme != .other)

def endsPath (c : Char) : Bool := c == '?' || c == '#'

/-- The host up to a colon outside of brackets. -/
def takeHost (bracketed : Bool) : List Char → List Char × List Char
  | [] => ([], [])
  | c :: cs =>
    if c = ':' ∧ !bracketed then ([], c :: cs)
    else
      let inside := if c = '[' then true else if c = ']' then false else bracketed
      let (host, rest) := takeHost inside cs
      (c :: host, rest)

/-- The number behind the colon is at most 65535; nothing but digits, unless a backslash ends it. -/
def checkPort (cs : List Char) : Except UrlError Unit :=
  match cs.dropWhile Char.isDigit with
  | [] | '\\' :: _ =>
    if Nat.ofDigitChars 10 (cs.takeWhile Char.isDigit) 0 ≤ 65535 then .ok () else .error .invalidPort
  | _ => .error .invalidPort

/-- What stands between the slashes of a URL and its path: perhaps a user and an at sign, then a
host and perhaps a colon with a number. Only other schemes may leave the host out, and then there is
neither user nor number; `more` says that something follows. -/
def checkAuthority (scheme : Scheme) (cs : List Char) (more : Bool) : Except UrlError Unit := do
  let (user, named) := match Text.splitLast '@' cs with
    | some (user, named) => (some user, named)
    | none => (none, cs)
  let (host, colon) := takeHost false named
  if host.isEmpty then
    let unnamed := match user with
      | none => true
      | some user => (user.isEmpty && !more) || user == [':']
    if scheme = .web ∨ !colon.isEmpty ∨ !unnamed then throw .emptyHost
  if scheme = .web then Host.check host else Host.checkOther host
  checkPort (colon.drop 1)

/-- A single point, written plainly or escaped. -/
def isDot (cs : List Char) : Bool :=
  ["." , "%2e"].any fun s => s.toList == cs.map Char.toLower

def isDoubleDot (cs : List Char) : Bool :=
  ["..", ".%2e", "%2e.", "%2e%2e"].any fun s => s.toList == cs.map Char.toLower

/-- The segments that are left when a double point takes back the one before it. `kept` is in
reverse; the path ends with an empty segment where its last one is taken away. -/
def resolveDots (kept : List (List Char)) : List (List Char) → List (List Char)
  | [] => kept.reverse
  | segment :: rest =>
    if isDoubleDot segment then
      resolveDots (if rest.isEmpty then [] :: kept.drop 1 else kept.drop 1) rest
    else if isDot segment then resolveDots (if rest.isEmpty then [] :: kept else kept) rest
    else resolveDots (segment :: kept) rest

def joinSegments (segments : List (List Char)) : List Char := segments.flatMap ('/' :: ·)

/-- The path of an address of the web, from its slash on if it has one. -/
def normalizedPath (cs : List Char) : List Char :=
  let cs := cs.map fun c => if c = '\\' then '/' else c
  let cs := if cs.head? = some '/' then cs.drop 1 else cs
  joinSegments (resolveDots [] ((Text.pieces '/' cs).map (percentEncode inPathSet)))

/-- Path and query, without the fragment. -/
def ofTail (scheme : Scheme) (cs : List Char) : Url where
  path :=
    let path := cs.takeWhile (!endsPath ·)
    if scheme = .other then percentEncode inPathSet path else normalizedPath path
  query :=
    match cs.dropWhile (!endsPath ·) with
    | '?' :: rest =>
      some (percentEncode (inQuerySet (scheme != .other)) (rest.takeWhile (· != '#')))
    | _ => none

def isDriveLetter : List Char → Bool
  | [letter, mark] => letter.isAlpha && (mark == ':' || mark == '|')
  | _ => false

/-- Addresses of the web always name a host, files and others do after two slashes. -/
def parseAfterScheme (scheme : Scheme) (cs : List Char) : Except UrlError Url := do
  let endsAuthority (c : Char) : Bool := isSlash scheme c || endsPath c
  match scheme with
  | .web =>
    let cs := cs.dropWhile (isSlash scheme)
    let rest := cs.dropWhile (!endsAuthority ·)
    checkAuthority scheme (cs.takeWhile (!endsAuthority ·)) !rest.isEmpty
    return ofTail scheme rest
  | .file =>
    if (cs.take 2).length = 2 ∧ (cs.take 2).all (isSlash scheme) then
      let host := (cs.drop 2).takeWhile (!endsAuthority ·)
      if !host.isEmpty && !isDriveLetter host then Host.check host
      return ofTail scheme ((cs.drop 2).drop host.length)
    return ofTail scheme cs
  | .other =>
    if cs.take 2 = ['/', '/'] then
      let cs := cs.drop 2
      let rest := cs.dropWhile (!endsAuthority ·)
      checkAuthority scheme (cs.takeWhile (!endsAuthority ·)) !rest.isEmpty
      return ofTail scheme rest
    return ofTail scheme cs

def isOuterBlank (c : Char) : Bool := c.toNat ≤ 0x20

/-- Controls and spaces around a URL do not count, tabs and line ends nowhere. -/
def cleaned (cs : List Char) : List Char :=
  ((cs.dropWhile isOuterBlank).reverse.dropWhile isOuterBlank).reverse.filter
    fun c => c != '\t' && c != '\n' && c != '\r'

def parse (text : String) : Except UrlError Url :=
  match takeScheme (cleaned text.toList) with
  | some (scheme, rest) => parseAfterScheme scheme rest
  | none => .error .relative

/-- The names and values of the query. -/
def pairs (u : Url) : List Form.Pair := Form.decode (u.query.getD [])

def appendPairs (u : Url) (pairs : List Form.Pair) : Url :=
  { u with query := some (Form.append (u.query.getD []) pairs) }

/-- What a request line names. -/
def target (u : Url) : String :=
  String.ofList <| u.path ++
    match u.query with
    | some query => '?' :: query
    | none => []

end Url
end Itinerary
