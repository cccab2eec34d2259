import Wayfinder.Url.Percent
import Wayfinder.Url.Domain
import Wayfinder.Url.Address

/-!
Addresses of resources: a scheme, a host, a path and the rest. Reading brings an address into its
normal form, in which the scheme and the host are in lower case, the default port is left out and
the path has no dots for steps.
-/

set_option autoImplicit false
set_option relaxedAutoImplicit false

namespace Wayfinder

/-- Why a text is no address. -/
inductive UrlFault
  | relative
  | emptyHost
  | domain
  | domainCharacter
  | port
  | octets
  | pieces
  deriving DecidableEq, Repr

/-- The wording of a fault. -/
def UrlFault.message : UrlFault → String
  | .relative => "relative URL without a base"
  | .emptyHost => "empty host"
  | .domain => "invalid international domain name"
  | .domainCharacter => "invalid domain character"
  | .port => "invalid port number"
  | .octets => "invalid IPv4 address"
  | .pieces => "invalid IPv6 address"

namespace Url

/-- A host: a name, or an address by number. -/
inductive Host
  | domain (name : String)
  | octets (n : Nat)
  | pieces (l : List Nat)
  deriving DecidableEq, Repr

/-- The text of a host. -/
def Host.text : Host → String
  | .domain name => name
  | .octets n => Octets.text n
  | .pieces l => "[" ++ Pieces.text l ++ "]"

/-- A host with its port, if that is not the default one. -/
structure Authority where
  host : Option Host
  port : Option Nat
  deriving DecidableEq, Repr

/-- A path: segments after slashes, or a text that has no parts. -/
inductive Path
  | segments (l : List String)
  | plain (text : String)
  deriving DecidableEq, Repr

end Url

/-- An address in normal form, without the name of a user. -/
structure Url where
  scheme : String
  authority : Option Url.Authority
  path : Url.Path
  query : Option String
  fragment : Option String
  deriving DecidableEq, Repr

namespace Url

/-- The common schemes, and the ports that they leave out. -/
def defaultPort? (scheme : String) : Option Nat :=
  match scheme with
  | "http" => some 80
  | "https" => some 443
  | "ws" => some 80
  | "wss" => some 443
  | "ftp" => some 21
  | _ => none

/-- Whether a scheme is a common one with hosts. -/
def isCommon (scheme : String) : Bool := (defaultPort? scheme).isSome

/-- Whether a character ends the part of an address with the host. -/
def endsAuthority (common : Bool) (c : Char) : Bool :=
  c == '/' || c == '?' || c == '#' || (common && c == '\\')

/-- Reads a scheme up to its colon. -/
def scheme? (l : List Char) : Option (String × List Char) :=
  match l with
  | [] => none
  | c :: _ =>
    let isSchemeChar (c : Char) : Bool := c.isAlphanum || c == '+' || c == '-' || c == '.'
    if !c.isAlpha then none
    else
      match l.dropWhile isSchemeChar with
      | ':' :: rest => some (String.ofList ((l.takeWhile isSchemeChar).map Char.toLower), rest)
      | _ => none

/-- The host of a common scheme. -/
def commonHost (l : List Char) : Except UrlFault Host :=
  match l with
  | '[' :: rest =>
    if rest.getLast? == some ']' then
      match Pieces.parse? rest.dropLast with
      | none => .error .pieces
      | some pieces => .ok (.pieces pieces)
    else .error .pieces
  | l =>
    match (Text.decode ⟨(Percent.decode l).toArray⟩).bind fun s => Domain.lookedUp? s.toList with
    | none => .error .domain
    | some name =>
      if name.isEmpty then .error .emptyHost
      else if Octets.endsInNumber name then
        match Octets.parse? name with
        | none => .error .octets
        | some n => .ok (.octets n)
      else .ok (.domain (String.ofList name))

/-- Whether a character has no place in the host of a scheme of its own. -/
def isForbiddenInHost (c : Char) : Bool := "\x00\t\n\r #/:<>?@[\\]^|".toList.contains c

/-- The host of any other scheme, which may be empty. -/
def ownHost (l : List Char) : Except UrlFault Host :=
  match l with
  | '[' :: rest =>
    if rest.getLast? == some ']' then
      match Pieces.parse? rest.dropLast with
      | none => .error .pieces
      | some pieces => .ok (.pieces pieces)
    else .error .pieces
  | l =>
    if l.any isForbiddenInHost then .error .domainCharacter
    else
      .ok (.domain (String.ofList (Percent.encode (fun c => 0x20 ≤ c.toNat && c.toNat ≤ 0x7e) l)))

/-- A text up to the colon before its port, which does not stand within brackets. -/
def cutPort : Bool → List Char → List Char × Option (List Char)
  | _, [] => ([], none)
  | inside, c :: rest =>
    if c == ':' && !inside then ([], some rest)
    else
      let (host, port) := cutPort ((inside || c == '[') && c != ']') rest
      (c :: host, port)

/-- Reads a port; an empty one, and the one that the scheme leaves out, is none. -/
def readPort (scheme : String) (l : List Char) : Except UrlFault (Option Nat) :=
  if l.isEmpty then .ok none
  else
    match Decimal.nat? 10 l with
    | none => .error .port
    | some n =>
      if 0xffff < n then .error .port
      else .ok (if defaultPort? scheme = some n then none else some n)

/-- Reads a host with its port, after the name of a user, which is passed over. -/
def readAuthority (scheme : String) (l : List Char) : Except UrlFault Authority := do
  let common := isCommon scheme
  let afterUser := (l.reverse.takeWhile (· ≠ '@')).reverse
  let hasUser := l.contains '@'
  let (host, portText) := cutPort false afterUser
  if host.isEmpty && (common || hasUser || portText.isSome) then .error .emptyHost
  else do
    let host ← if common then commonHost host else ownHost host
    let port ← match portText with
      | none => .ok none
      | some text => readPort scheme text
    .ok { host := if host = .domain "" then none else some host, port }

/-- Whether a segment stands for a step up. -/
def isStepUp (s : List Char) : Bool :=
  let l := s.map Char.toLower
  l == ['.', '.'] || l == ['%', '2', 'e', '.'] || l == ['.', '%', '2', 'e'] ||
    l == ['%', '2', 'e', '%', '2', 'e']

/-- Whether a segment stands for staying. -/
def isStay (s : List Char) : Bool :=
  let l := s.map Char.toLower
  l == ['.'] || l == ['%', '2', 'e']

/-- Takes the steps of segments. A step at the end leaves an empty segment there. -/
def takeSteps : List (List Char) → List (List Char) → List (List Char)
  | done, [] => done
  | done, s :: rest =>
    if isStepUp s then
      takeSteps (if rest.isEmpty then done.dropLast ++ [[]] else done.dropLast) rest
    else if isStay s then takeSteps (if rest.isEmpty then done ++ [[]] else done) rest
    else takeSteps (done ++ [s]) rest

/-- The segments of a path after its first slash. -/
def segments (common : Bool) (l : List Char) : List String :=
  let l := if common then l.map fun c => if c = '\\' then '/' else c else l
  (takeSteps [] ((Text.pieces '/' l).map (Percent.encode Percent.keepsInPath))).map String.ofList

/-- A text up to a character, and what follows that. -/
def cutAt (mark : Char) (l : List Char) : List Char × Option (List Char) :=
  match l.dropWhile (· ≠ mark) with
  | [] => (l, none)
  | _ :: rest => (l.takeWhile (· ≠ mark), some rest)

/-- The path, and the query and the fragment behind it. -/
def ending (scheme : String) (authority : Option Authority) (path : List Char → Path)
    (l : List Char) : Url :=
  let (l, fragment) := cutAt '#' l
  let (l, query) := cutAt '?' l
  let encoded (keep : Char → Bool) (l : List Char) : String := String.ofList (Percent.encode keep l)
  { scheme, authority, path := path l
    query := query.map (encoded (Percent.keepsInQuery (isCommon scheme || scheme == "file")))
    fragment := fragment.map (encoded Percent.keepsInFragment) }

/-- The path of a common scheme, which is never empty. -/
def commonPath (l : List Char) : Path :=
  match l with
  | '/' :: rest => .segments (segments true rest)
  | '\\' :: rest => .segments (segments true rest)
  | l => .segments (segments true l)

/-- The path of any other scheme: segments if it begins with a slash. -/
def ownPath (l : List Char) : Path :=
  match l with
  | '/' :: rest => .segments (segments false rest)
  | l => .plain (String.ofList (Percent.encode (fun c => 0x20 ≤ c.toNat && c.toNat ≤ 0x7e) l))

/-- The path after a host of any other scheme, which may be empty. -/
def ownPathAfterHost (l : List Char) : Path :=
  match l with
  | [] => .segments []
  | '/' :: rest => .segments (segments false rest)
  | l => .segments (segments false l)

/-- Reads what follows two slashes. -/
def withAuthority (scheme : String) (path : List Char → Path) (l : List Char) :
    Except UrlFault Url := do
  let common := isCommon scheme
  let authority ← readAuthority scheme (l.takeWhile fun c => !endsAuthority common c)
  .ok (ending scheme (some authority) path (l.dropWhile fun c => !endsAuthority common c))

/-- Reads what follows the scheme of files. The host of the file itself is left out. -/
def fileUrl (l : List Char) : Except UrlFault Url :=
  let isSlash (c : Char) : Bool := c == '/' || c == '\\'
  match l with
  | a :: b :: rest =>
    if isSlash a && isSlash b then do
      let host := rest.takeWhile fun c => !endsAuthority true c
      let rest := rest.dropWhile fun c => !endsAuthority true c
      let host ← if host.isEmpty then .ok none else (commonHost host).map some
      let host := if host = some (.domain "localhost") then none else host
      .ok (ending "file" (some { host, port := none }) commonPath rest)
    else .ok (ending "file" (some { host := none, port := none }) commonPath l)
  | l => .ok (ending "file" (some { host := none, port := none }) commonPath l)

/-- A text without controls and spaces at its ends, and without tabs and line breaks. -/
def clean (s : String) : List Char :=
  let isEdge (c : Char) : Bool := c.toNat ≤ 0x20
  let l := s.toList.dropWhile isEdge
  ((l.reverse.dropWhile isEdge).reverse).filter fun c => !(c == '\t' || c == '\n' || c == '\r')

/-- Reads an address. -/
def parse (s : String) : Except UrlFault Url :=
  match scheme? (clean s) with
  | none => .error .relative
  | some (scheme, rest) =>
    if scheme = "file" then fileUrl rest
    else if isCommon scheme then
      withAuthority scheme commonPath (rest.dropWhile fun c => c == '/' || c == '\\')
    else
      match rest with
      | '/' :: '/' :: rest => withAuthority scheme ownPathAfterHost rest
      | rest => .ok (ending scheme none ownPath rest)

/-- The host with its port. -/
def Authority.text (a : Authority) : String :=
  (a.host.map Host.text).getD "" ++
    match a.port with
    | none => ""
    | some n => ":" ++ toString n

/-- The segments of the path; a path without parts has none. -/
def pathSegments (u : Url) : List String :=
  match u.path with
  | .segments l => l
  | .plain _ => []

/-- The path as a text. -/
def pathText (u : Url) : String :=
  match u.path with
  | .segments l => String.join (l.map ("/" ++ ·))
  | .plain s => s

/-- The address as a text. -/
def text (u : Url) : String :=
  u.scheme ++ ":" ++
    (match u.authority with
      | none => ""
      | some a => "//" ++ a.text) ++
    u.pathText ++
    (match u.query with
      | none => ""
      | some q => "?" ++ q) ++
    (match u.fragment with
      | none => ""
      | some f => "#" ++ f)

/-- The scheme and host that an address belongs to. A blob belongs to where the address in its path
does, with at most `depth` blobs within one another; addresses of other than common schemes belong
to none. -/
def originWithin : Nat → Url → String
  | 0, _ => "null"
  | depth + 1, u =>
    if u.scheme = "blob" then
      match parse u.pathText with
      | .ok inner => originWithin depth inner
      | .error _ => "null"
    else
      match u.authority with
      | some a => if isCommon u.scheme then u.scheme ++ "://" ++ a.text else "null"
      | none => "null"

/-- The scheme and host that an address belongs to. Each blob within another has a shorter path, so
the path's length bounds their number. -/
def origin (u : Url) : String := originWithin (u.pathText.length + 1) u

end Url

end Wayfinder
