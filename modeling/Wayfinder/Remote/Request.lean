import Wayfinder.Credential.Certificate
import Wayfinder.Credential.Plugin
import Wayfinder.Url.Basic

/-!
Requests over a network, and what their answers are taken for. A request can fail before it is
sent; `Outside` is where it is sent to.
-/

set_option autoImplicit false
set_option relaxedAutoImplicit false

namespace Wayfinder.Remote

/-- A certificate with its key, shown to a server. -/
structure Identity where
  certificates : List (List UInt8)
  key : List UInt8
  deriving DecidableEq, Repr

/-- What a server is trusted by, and what it is shown. -/
structure Trust where
  /-- Certificates that are trusted besides the usual ones. -/
  roots : List (List UInt8) := []
  identity : Option Identity := none
  skipsVerification : Bool := false
  deriving DecidableEq, Repr

namespace Identity

/-- The identity in a text of certificates and keys; the last key counts. -/
def ofPem? (text : List UInt8) : Option Identity := do
  let sections ← Pem.sections? text
  let certificates := (sections.filter (·.kind == .certificate)).map (·.content)
  let keys := (sections.filter (·.kind == .key)).map (·.content)
  let key ← keys.getLast?
  if certificates.isEmpty || sections.any (·.kind == .other) then none
  else some { certificates, key }

/-- Whether an identity can be shown. -/
def isUsable (i : Identity) : Bool :=
  (i.certificates.head?.map Certificate.isReadable).getD false && Certificate.isKey i.key

end Identity

/-- Whether a connection can be made with a trust. Without verification no root is looked at. -/
def Trust.isUsable (t : Trust) : Bool :=
  (t.skipsVerification || t.roots.all Certificate.isReadable) && t.identity.all Identity.isUsable

/-- A request for what is at an address. -/
structure Request where
  url : Url
  /-- The token that is sent along. -/
  token : Option String
  trust : Trust
  deriving DecidableEq, Repr

/-- The answer of a server. -/
structure Response where
  status : Nat
  body : List UInt8
  deriving DecidableEq, Repr

/-- What lies outside of the program: a network, which may not reach a server, and commands that can
be started. -/
structure Outside (m : Type → Type) where
  send : Request → m (Option Response)
  start : Files.Disk → Credential.Launch → m (Except Files.IoFault Credential.Ended)

/-- Whether a text can be sent along with a request. -/
def isSendable (s : String) : Bool :=
  s.toList.all fun c => c == '\t' || (0x20 ≤ c.toNat && c.toNat ≠ 0x7f)

/-- Whether a host can be connected to: four characters have no place in its name then. -/
def isConnectable (host : Url.Host) : Bool :=
  host.text.toList.all fun c => !(c == '"' || c == '\x60' || c == '\x7b' || c == '\x7d')

namespace Request

/-- The request for an address. -/
def build (address : String) (token : Option String) (trust : Trust) :
    Except RequestFault Request :=
  match Url.parse address with
  | .error _ => .error (.unbuildable none)
  | .ok url =>
    match url.authority.bind (·.host) with
    | none => .error (.unbuildable (some url.text))
    | some host =>
      if !token.all isSendable then .error (.unbuildable none)
      else if (url.scheme == "https" || url.scheme == "http") && isConnectable host then
        .ok { url, token, trust }
      else .error (.unbuildable (some url.text))

/-- Whether a status says that the request is granted. -/
def isGranted (status : Nat) : Bool := 200 ≤ status && status < 300

variable {m : Type → Type} [Monad m] {α : Type}

/-- What an answer to a request is taken for. -/
def outcome (request : Request) (what : String) (read : Json → Option α) :
    Option Response → Except Failure α
  | none => .error (.http (.unreachable request.url.text))
  | some response =>
    if isGranted response.status then
      match (Json.writtenBytes? response.body).bind read with
      | none => .error (.http (.undecodable request.url.text))
      | some value => .ok value
    else .error (.api response.status ("Failed to fetch " ++ what))

/-- Sends a request, if there is one, and reads the answer. -/
def ask (outside : Outside m) (request : Except RequestFault Request) (what : String)
    (read : Json → Option α) : ExceptT Failure m α := ExceptT.mk do
  match request with
  | .error fault => pure (.error (.http fault))
  | .ok request => pure (request.outcome what read (← outside.send request))

end Request

end Wayfinder.Remote
