import Wayfinder.CommandLine.Options

/-!
What the command says about its own use.
-/

set_option autoImplicit false
set_option relaxedAutoImplicit false

namespace Wayfinder.CommandLine

/-- What stands for the value of a setting. -/
def Setting.placeholder : Setting → String
  | .context => "<CONTEXT>"
  | .file => "<FILE>"
  | .token => "<TOKEN>"
  | .domain => "<DOMAIN>"
  | .logLevel => "<LOG_LEVEL>"

namespace Choice

/-- What an option is for. -/
def explanation : Choice → String
  | .setting .context => "Name of the kubeconfig context to manage"
  | .setting .file => "Kubeconfig file to modify (- prints the new context)"
  | .setting .token => "Upbound API token used to list organizations and spaces"
  | .setting .domain => "Upbound domain"
  | .setting .logLevel => "Log level (error, warn, info, debug, trace)"
  | .mark .short => "Print only the path of the new target"
  | .mark .skipVerification => "Skip TLS verification when talking to spaces"
  | .mark .help => "Print help"
  | .mark .version => "Print version"

/-- An option as it is written. -/
def spelling (o : Choice) : String :=
  let long := "--" ++ o.name
  let long := match o with
    | .setting s => long ++ " " ++ s.placeholder
    | .mark _ => long
  match o.letter? with
  | none => "    " ++ long
  | some c => String.ofList ['-', c] ++ ", " ++ long

end Choice

/-- How the command is used. -/
def usage : String := "Usage: wayfinder [OPTIONS] [PATH]\n"

/-- The text that explains the command. -/
def helpText : String :=
  usage ++ "\nOptions:\n" ++
    String.join (Choice.all.map fun o =>
      "  " ++ o.spelling ++ "\n        " ++ o.explanation ++ "\n")

/-- The version of the command. -/
def versionText : String := "wayfinder 0.1.0\n"

/-- What is said to a command line that is not followed. -/
def Refusal.message : Refusal → String
  | .unknown word => "error: unexpected argument '" ++ word ++ "' found\n\n" ++ usage
  | .missingValue s => "error: a value is required for '--" ++ s.name ++ "'\n"
  | .emptyValue s => "error: the value of '--" ++ s.name ++ "' is empty\n"
  | .unwantedValue m => "error: '--" ++ m.name ++ "' takes no value\n"
  | .repeated o => "error: '--" ++ o.name ++ "' is used more than once\n"
  | .help => helpText
  | .version => versionText

end Wayfinder.CommandLine
