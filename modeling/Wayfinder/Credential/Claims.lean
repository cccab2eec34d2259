import Wayfinder.Credential.Base64
import Wayfinder.Json.Parser
import Wayfinder.Kubeconfig.Basic
import Wayfinder.Text.Blank
import Wayfinder.Text.Pieces
import Wayfinder.Text.Utf8

/-!
What credentials say about whose they are: the claims of a token, which nobody has verified, and
the arguments of a credential plugin.
-/

set_option autoImplicit false
set_option relaxedAutoImplicit false

namespace Wayfinder

/-- The JSON value that octets spell. -/
def Json.ofBytes (bytes : List UInt8) : Except Failure Json :=
  match (Text.decode ⟨bytes.toArray⟩).bind Json.parse? with
  | none => .error (.json "not a value")
  | some json => .ok json

namespace Credential

/-- The claims of a token: its second part, in the alphabet for addresses. -/
def claims (token : String) : Except Failure Json :=
  match Text.split token '.' with
  | _ :: payload :: _ =>
    let symbols := Text.dropEndWhile (· == '=') payload.toList
    match Base64.forUrls.decode (Text.encode (String.ofList symbols)).toList with
    | .error fault => .error (.token ("invalid JWT payload: " ++ fault.message))
    | .ok bytes => Json.ofBytes bytes
  | _ => .error (.token "token is not a JWT")

/-- The claim that names the organization. -/
def organizationClaim : String := "organization"

/-- The argument that names the organization. -/
def organizationArgument : String := "--organization"

/-- The organization that a token claims. -/
def claimedOrganization (token : String) : Option String :=
  match claims token with
  | .error _ => none
  | .ok json => (json.member? organizationClaim).bind Json.text?

/-- The organization that arguments name, in one argument or in two. -/
def argumentOrganization : List String → Option String
  | [] => none
  | arg :: rest =>
    match Text.after? arg (organizationArgument ++ "=") with
    | some name => some name
    | none =>
      if arg = organizationArgument then
        match rest with
        | [] => none
        | name :: _ => some name
      else argumentOrganization rest

/-- The organization that a user belongs to, by the token or else by the plugin. -/
def organizationOf (user : User) : Option String :=
  (user.token.bind claimedOrganization).or
    (user.plugin.bind fun plugin => argumentOrganization plugin.args)

end Credential

end Wayfinder
