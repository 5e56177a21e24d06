import Headroom.Text.Cut

/-!
Base URLs of gateways and the addresses under them. The path is a list of encoded
segments, so an address is built by appending segments, and resolving `.` and `..`
is dropping segments.

A host is checked and brought into lower case, and otherwise kept as it is written:
international names are not encoded, and the addresses of IPv4 and IPv6 are not brought
into one form.
-/
namespace Headroom.Gateway

open Headroom.Text (cutAt)

/-- Why a text is no URL. -/
inductive UrlError where
  | noScheme
  | emptyHost
  | invalidHost
  | invalidDomainCharacter
  | invalidPort
  | invalidIpv4
  | invalidIpv6
  deriving DecidableEq, Repr

def UrlError.message : UrlError → String
  | .noScheme => "relative URL without a base"
  | .emptyHost => "empty host"
  | .invalidHost => "invalid international domain name"
  | .invalidDomainCharacter => "invalid domain character"
  | .invalidPort => "invalid port number"
  | .invalidIpv4 => "invalid IPv4 address"
  | .invalidIpv6 => "invalid IPv6 address"

inductive UrlPath where
  /-- The path of a URL such as `mailto:x`, under which there are no addresses. -/
  | opaqueText (text : String)
  /-- The segments between slashes; the path `/` has one empty segment. -/
  | segments (list : List String)
  deriving DecidableEq, Repr

structure Url where
  scheme : String
  /-- What stands between `//` and the path, if anything may. -/
  authority : Option String
  path : UrlPath
  query : Option String
  deriving DecidableEq, Repr

namespace Url

/-- An upper-case hexadecimal digit. -/
def hexCapital (n : Nat) : Char := Char.ofNat (if n < 10 then 48 + n else 55 + n)

/-- A byte as a percent sign and two digits. -/
def percentByte (b : UInt8) : List Char :=
  ['%', hexCapital (b.toNat / 16), hexCapital (b.toNat % 16)]

/-- A character, encoded if it is a control, not ASCII, or one of `extra`. -/
def percentChar (extra : List Char) (c : Char) : List Char :=
  if c.toNat < 0x20 ∨ 0x7F ≤ c.toNat ∨ c ∈ extra then
    (String.utf8EncodeChar c).flatMap percentByte
  else [c]

def percentEncode (extra : List Char) (text : List Char) : String :=
  String.ofList (text.flatMap (percentChar extra))

/-- What a path may not hold as it is. -/
def pathSet : List Char := [' ', '\x22', '#', '<', '>', '?', '\x60', '\x7b', '\x7d']

/-- What one segment may not hold as it is. -/
def segmentSet (special : Bool) : List Char :=
  pathSet ++ ['/', '%'] ++ if special then ['\x5c'] else []

def querySet (special : Bool) : List Char :=
  [' ', '\x22', '#', '<', '>'] ++ if special then ['\x27'] else []

/-- Tabs and line ends do not count in a URL. -/
def isDropped (c : Char) : Bool := c == '\t' || c == '\n' || c == '\r'

/-- The schemes with a host, where a backslash is a slash, and their usual ports. -/
def specialPorts : List (String × Nat) :=
  [("http", 80), ("https", 443), ("ws", 80), ("wss", 443), ("ftp", 21)]

def isSpecialScheme (scheme : String) : Bool :=
  scheme == "file" || specialPorts.any (·.1 == scheme)

def isSpecial (u : Url) : Bool := isSpecialScheme u.scheme

/-- Spellings of the segment that stands for its parent. -/
def isParent (segment : List Char) : Bool :=
  String.ofList (segment.map Char.toLower) ∈ ["..", "%2e%2e", "%2e.", ".%2e"]

/-- Spellings of the segment that stands for itself. -/
def isSelf (segment : List Char) : Bool :=
  String.ofList (segment.map Char.toLower) ∈ [".", "%2e"]

/-- Resolve and encode the segments of a path, onto the resolved ones before. -/
def resolve (done : List String) : List (List Char) → List String
  | [] => done
  | segment :: rest =>
    let close (kept : List String) := if rest.isEmpty then kept ++ [""] else kept
    if isParent segment then resolve (close done.dropLast) rest
    else if isSelf segment then resolve (close done) rest
    else resolve (done ++ [percentEncode pathSet segment]) rest

/-- Put one name at the end of a path, as a segment of its own. The names `.` and
`..` are skipped. Tabs and line ends are dropped only after that, so a name that
they hid may still go up a level. -/
def pushSegment (special : Bool) (path : List String) (name : String) : List String :=
  if name = "." ∨ name = ".." then path
  else
    let base := if path = [""] then [] else path
    let text := name.toList.filter fun c => !isDropped c
    if text = ['.', '.'] then base.dropLast ++ [""]
    else if text = ['.'] then base ++ [""]
    else base ++ [percentEncode (segmentSet special) text]

/-- The path without one empty segment at its end. -/
def dropEmptyEnd (path : List String) : List String :=
  if path ≠ [""] ∧ path.getLast? = some "" then path.dropLast else path

/-- The address of a resource under a base URL. -/
def below (base : Url) (names : List String) : Url :=
  match base.path with
  | .opaqueText _ => base
  | .segments path =>
    { base with path := .segments (names.foldl (pushSegment base.isSpecial) (dropEmptyEnd path)) }

/-- What a request asks for: the path with the query. -/
def requestTarget (u : Url) : String :=
  let path :=
    match u.path with
    | .opaqueText text => text
    | .segments list => "/" ++ "/".intercalate list
  path ++ match u.query with
    | some query => "?" ++ query
    | none => ""

/-- The scheme in lower case, and what follows its colon. -/
def takeScheme (text : List Char) : Option (String × List Char) :=
  match text with
  | [] => none
  | first :: _ =>
    let scheme := text.takeWhile fun c => c.isAlphanum || c == '+' || c == '-' || c == '.'
    match text.drop scheme.length with
    | ':' :: rest =>
      if first.isAlpha then some (String.ofList (scheme.map Char.toLower), rest) else none
    | _ => none

/-- The characters that no host may hold. -/
def forbiddenHost : List Char :=
  ['\x00', '\t', '\n', '\r', ' ', '#', '/', ':', '<', '>', '?', '@', '[', '\x5c', ']', '^', '|']

/-- The characters that no domain may hold. -/
def forbiddenDomain (c : Char) : Bool :=
  c ∈ forbiddenHost || c.toNat < 0x20 || c == '%' || c == '\x7f'

/-- A number in decimal, octal or hexadecimal, as a part of an IPv4 address. -/
def addressNumber? (part : List Char) : Option Nat :=
  let digits (base : Nat) (text : List Char) : Option Nat :=
    text.foldl (fun value c => do
      let value ← value
      let n := c.toNat
      let digit ←
        if '0' ≤ c ∧ c ≤ '9' then some (n - 48)
        else if 'a' ≤ c ∧ c ≤ 'f' then some (n - 87)
        else none
      if digit < base then some (value * base + digit) else none) (some 0)
  match part with
  | [] => none
  | '0' :: 'x' :: rest => digits 16 rest
  | '0' :: rest => digits 8 rest
  | text => digits 10 text

/-- Whether a domain ends in a number, and so must be an IPv4 address. -/
def endsInNumber (host : List Char) : Bool :=
  let parts := cutAt (· == '.') host
  let last := (if parts.getLast? = some [] then parts.dropLast else parts).getLast?.getD []
  (!last.isEmpty && last.all Char.isDigit) ||
    (last.take 2 == ['0', 'x'] && (addressNumber? last).isSome)

/-- Whether a text is an IPv4 address: up to four numbers, of which the last fills
the bytes that are left. -/
def isIpv4 (host : List Char) : Bool :=
  let parts := cutAt (· == '.') host
  let parts := if parts.getLast? = some [] then parts.dropLast else parts
  match parts.mapM addressNumber? with
  | none => false
  | some numbers =>
    let count := numbers.length
    1 ≤ count && count ≤ 4 && numbers.dropLast.all (· ≤ 255) &&
      numbers.getLast?.getD 0 < Nat.pow 256 (5 - count)

/-- Whether a text is a group of one to four hexadecimal digits. -/
def isHexGroup (part : List Char) : Bool :=
  1 ≤ part.length && part.length ≤ 4 &&
    part.all fun c => c.isDigit || ('a' ≤ c && c ≤ 'f') || ('A' ≤ c && c ≤ 'F')

/-- Whether a text is four decimal numbers of one byte each. -/
def isDottedQuad (part : List Char) : Bool :=
  let numbers := cutAt (· == '.') part
  numbers.length == 4 && numbers.all fun n =>
    !n.isEmpty && n.length ≤ 3 && n.all Char.isDigit && (n.length == 1 || n.head? != some '0') &&
      (String.ofList n).toNat?.any (· ≤ 255)

/-- How many of the eight groups some parts fill; the last may be an IPv4 address. -/
def groupCount? (parts : List (List Char)) : Option Nat :=
  match parts.reverse with
  | [] => some 0
  | last :: before =>
    if before.all isHexGroup then
      if isHexGroup last then some parts.length
      else if isDottedQuad last then some (parts.length + 1)
      else none
    else none

/-- Whether a text is an IPv6 address; `::` stands for at least one group. -/
def isIpv6 (text : List Char) : Bool :=
  let parts := cutAt (· == ':') text
  let before := parts.takeWhile (!·.isEmpty)
  match parts.drop before.length with
  | [] => groupCount? parts == some 8
  | _ :: rest =>
    let rest := if before.isEmpty then rest.drop 1 else rest
    let opened := !before.isEmpty || parts.take 2 == [[], []]
    let after := if rest == [[]] then [] else rest
    match groupCount? before, groupCount? after with
    | some a, some b => opened && before.all isHexGroup && a + b ≤ 7
    | _, _ => false

/-- Undo percent-encoding where two digits follow the sign. -/
def percentDecode : List Char → List Char
  | '%' :: a :: b :: rest =>
    match addressNumber? ['0', 'x', a.toLower, b.toLower] with
    | some n => Char.ofNat n :: percentDecode rest
    | none => '%' :: percentDecode (a :: b :: rest)
  | c :: rest => c :: percentDecode rest
  | [] => []

/-- Check a host and give it in lower case. -/
def checkHost (special : Bool) (host : List Char) : Except UrlError String :=
  match host with
  | '[' :: rest =>
    if rest.getLast? = some ']' ∧ isIpv6 rest.dropLast then .ok (String.ofList host)
    else .error .invalidIpv6
  | [] => if special then .error .emptyHost else .ok ""
  | host =>
    if special then
      let domain := (percentDecode host).map Char.toLower
      if domain.any forbiddenDomain then .error .invalidHost
      else if endsInNumber domain then
        if isIpv4 domain then .ok (String.ofList domain) else .error .invalidIpv4
      else .ok (String.ofList domain)
    else if host.any (· ∈ forbiddenHost) then .error .invalidDomainCharacter
    else .ok (String.ofList host)

/-- Split off what stands behind the colon outside brackets. -/
def splitPort (text : List Char) : List Char × List Char :=
  let inside := if text.head? = some '[' then text.takeWhile (· != ']') else []
  let rest := text.drop inside.length
  (inside ++ rest.takeWhile (· != ':'), (rest.dropWhile (· != ':')).drop 1)

/-- Check the part between `//` and the path. The usual number of a scheme is
left out; what comes before the last `@` names a user. -/
def checkAuthority (scheme : String) (text : List Char) : Except UrlError String := do
  let special := isSpecialScheme scheme
  let user := (text.reverse.dropWhile (· != '@')).reverse
  let (hostText, portText) := splitPort (text.drop user.length)
  let host ← checkHost (special && scheme != "file") hostText
  if portText.all Char.isDigit then
    let number := (String.ofList portText).toNat?.getD 0
    if 65535 < number then .error .invalidPort
    else
      let shown :=
        if portText.isEmpty ∨ specialPorts.lookup scheme = some number then ""
        else ":" ++ toString number
      .ok (String.ofList user ++ host ++ shown)
  else .error .invalidPort

/-- Split off the query; a fragment is dropped. -/
def splitQuery (special : Bool) (text : List Char) : List Char × Option String :=
  let text := text.takeWhile (· != '#')
  let path := text.takeWhile (· != '?')
  match text.drop path.length with
  | _ :: query => (path, some (percentEncode (querySet special) query))
  | [] => (path, none)

/-- Read an absolute URL. Blanks and controls around it, and tabs and line ends in
it, do not count. -/
def parse (text : String) : Except UrlError Url :=
  let blank (c : Char) : Bool := c.toNat ≤ 0x20
  let trimmed := ((text.toList.dropWhile blank).reverse.dropWhile blank).reverse
  match takeScheme (trimmed.filter fun c => !isDropped c) with
  | none => .error .noScheme
  | some (scheme, rest) =>
    let special := isSpecialScheme scheme
    let isSlash (c : Char) : Bool := c == '/' || (special && c == '\x5c')
    let ends (c : Char) : Bool := isSlash c || c == '?' || c == '#'
    let pathOf (text : List Char) : UrlPath × Option String :=
      let (path, query) := splitQuery special text
      match path with
      | [] => (.segments (if special then [""] else []), query)
      | _ :: inner => (.segments (resolve [] (cutAt isSlash inner)), query)
    let withAuthority (text : List Char) : Except UrlError Url := do
      let authority := text.takeWhile fun c => !ends c
      let checked ← checkAuthority scheme authority
      let (path, query) := pathOf (text.drop authority.length)
      return { scheme, authority := some checked, path, query }
    if special ∧ scheme ≠ "file" then withAuthority (rest.dropWhile isSlash)
    else
      match rest with
      | a :: b :: inner =>
        if isSlash a ∧ isSlash b then withAuthority inner
        else if isSlash a then
          let (path, query) := pathOf rest
          .ok { scheme, authority := none, path, query }
        else
          let (path, query) := splitQuery special rest
          .ok { scheme, authority := none, path := .opaqueText (String.ofList path), query }
      | [a] =>
        if isSlash a then .ok { scheme, authority := none, path := .segments [""], query := none }
        else
          .ok { scheme, authority := none, path := .opaqueText (String.ofList rest), query := none }
      | [] => .ok { scheme, authority := none, path := .opaqueText "", query := none }

/-- Resolve a relative path of plain segments against a base: it takes the place of
the last segment of the base, whose query is dropped. -/
def join? (base : Url) (segments : List String) : Option Url :=
  match base.path with
  | .opaqueText _ => none
  | .segments path =>
    some { base with path := .segments (path.dropLast ++ segments), query := none }

end Url
end Headroom.Gateway
