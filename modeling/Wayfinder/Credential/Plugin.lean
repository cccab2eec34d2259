import Wayfinder.Files.Disk
import Wayfinder.Failure
import Wayfinder.Json.Printer
import Wayfinder.Json.Record
import Wayfinder.Kubeconfig.Basic
import Wayfinder.Text.Blank

/-!
Credential plugins: commands that print a credential as JSON.
-/

set_option autoImplicit false
set_option relaxedAutoImplicit false

namespace Wayfinder.Credential

/-- A command to be started, with the variables that are added to its environment. -/
structure Launch where
  command : String
  args : List String
  env : List Variable
  deriving DecidableEq, Repr

/-- How a command ends. -/
inductive Ending
  | exit (code : Nat)
  | signal (number : Nat)
  deriving DecidableEq, Repr

/-- The names of the signals, from the first one on. -/
def signalNames : List String :=
  ["HUP", "INT", "QUIT", "ILL", "TRAP", "ABRT", "BUS", "FPE", "KILL", "USR1", "SEGV", "USR2",
    "PIPE", "ALRM", "TERM", "STKFLT", "CHLD", "CONT", "STOP", "TSTP", "TTIN", "TTOU", "URG",
    "XCPU", "XFSZ", "VTALRM", "PROF", "WINCH", "IO", "PWR", "SYS"]

/-- The wording of an ending. -/
def Ending.message : Ending → String
  | .exit code => "exit status: " ++ toString code
  | .signal number =>
    "signal: " ++ toString number ++
      match if number = 0 then none else signalNames[number - 1]? with
      | none => ""
      | some name => " (SIG" ++ name ++ ")"

/-- What a command leaves behind. -/
structure Ended where
  ending : Ending
  output : List UInt8
  errors : List UInt8
  deriving DecidableEq, Repr

/-- What a plugin gives: a token, and a certificate with its key as they are. -/
structure Given where
  token : Option String
  certificate : Option String
  key : Option String
  deriving DecidableEq, Repr

/-- The version of the exchange with plugins that do not name one. -/
def usualVersion : String := "client.authentication.k8s.io/v1"

/-- What a plugin is told about the exchange. -/
def exchange (plugin : Plugin) : Json :=
  let version := if plugin.apiVersion.isEmpty then usualVersion else plugin.apiVersion
  Json.ofMembers [("apiVersion", .string version), ("kind", .string "ExecCredential"),
    ("spec", Json.ofMembers [("interactive", .bool false)])]

/-- The command of a plugin. -/
def launch (plugin : Plugin) : Launch where
  command := plugin.command
  args := plugin.args
  env := plugin.env ++ [{ name := "KUBERNETES_EXEC_INFO", value := (exchange plugin).render }]

/-- Whether a command can be started: the character of code zero would end its words. -/
def Launch.isPassable (l : Launch) : Bool :=
  (l.command :: (l.args ++ l.env.map (·.name) ++ l.env.map (·.value))).all
    fun word => !word.toList.contains '\x00'

/-- Reads what a plugin gives. -/
def Given.ofJson? (json : Json) : Option Given := do
  let fields ← json.fields? ["token", "clientCertificateData", "clientKeyData"] 0
  let token ← fields.read? "token" (some none) (Json.nullable Json.text?)
  let certificate ← fields.read? "clientCertificateData" (some none) (Json.nullable Json.text?)
  let key ← fields.read? "clientKeyData" (some none) (Json.nullable Json.text?)
  some { token, certificate, key }

/-- Reads a printed credential, which may give nothing. -/
def printed? (bytes : List UInt8) : Option (Option Given) := do
  let json ← Json.writtenBytes? bytes
  let fields ← json.fields? ["status"] 1
  fields.read? "status" (some none) (Json.nullable Given.ofJson?)

/-- The credential that a plugin has printed. -/
def ofEnded (command : String) (e : Ended) : Except Failure Given :=
  if e.ending = .exit 0 then
    match printed? e.output with
    | none => .error (.json "not a credential")
    | some none => .error (.token (command ++ " returned no credentials"))
    | some (some given) => .ok given
  else
    .error (.token (command ++ " exited with " ++ e.ending.message ++ ": " ++
      Text.trim (String.ofList (Text.decodeLossy e.errors))))

/-- Runs a plugin. -/
def ofPlugin {m : Type → Type} [Monad m] (start : Launch → m (Except Files.IoFault Ended))
    (plugin : Plugin) : ExceptT Failure m Given := ExceptT.mk do
  let unstarted (reason : String) : Except Failure Given :=
    .error (.token ("failed to run " ++ plugin.command ++ ": " ++ reason))
  let l := launch plugin
  if l.isPassable then
    match ← start l with
    | .error fault => pure (unstarted fault.message)
    | .ok ended => pure (ofEnded plugin.command ended)
  else pure (unstarted "nul byte found in provided data")

end Wayfinder.Credential
