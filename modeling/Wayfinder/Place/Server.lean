import Wayfinder.Url.Basic
import Wayfinder.Failure

/-!
What the address of a server says about the place behind it: the endpoint of a space, and the group
and the control plane that the address leads to.
-/

set_option autoImplicit false
set_option relaxedAutoImplicit false

namespace Wayfinder

/-- The address of a server, taken apart. -/
structure ServerPath where
  /-- The endpoint: scheme and host, and the path before the Kubernetes API. -/
  base : String
  group : Option String
  controlPlane : Option String
  deriving DecidableEq, Repr

/-- An address without its scheme, if that is a scheme of the web. -/
def dropScheme (s : String) : String :=
  match Text.after? s "https://" with
  | some rest => rest
  | none => (Text.after? s "http://").getD s

namespace ServerPath

/-- The segments before the Kubernetes API: those before the first `api` or `apis`, or else before
the first `namespaces`. -/
def endpoint (segments : List String) : List String :=
  let isApi (s : String) : Bool := s == "apis" || s == "api"
  if segments.any isApi then segments.takeWhile (!isApi ·)
  else segments.takeWhile (· != "namespaces")

/-- The group and the control plane that segments lead to. -/
def names (segments : List String) : Option String × Option String :=
  match segments.dropWhile (· != "namespaces") with
  | _ :: group :: rest =>
    (some group,
      match rest with
      | "controlplanes" :: controlPlane :: _ => some controlPlane
      | _ => none)
  | _ => (none, none)

/-- Takes an address in normal form apart. -/
def ofUrl (url : Url) : ServerPath :=
  let segments := url.pathSegments.filter (!·.isEmpty)
  let (group, controlPlane) := names segments
  { base := url.origin ++ String.join ((endpoint segments).map ("/" ++ ·)), group, controlPlane }

/-- Takes the address of a server apart. -/
def parse (server : String) : Except Failure ServerPath :=
  match Url.parse server with
  | .error fault =>
    .error (.config ("invalid server URL " ++ Text.quoted server ++ ": " ++ fault.message))
  | .ok url => .ok (ofUrl url)

/-- The endpoint in the form in which spaces make it known. -/
def ingress (p : ServerPath) : String := dropScheme p.base

end ServerPath

end Wayfinder
