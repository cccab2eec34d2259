/-!
The options of a command line, and what a command line asks for once they are read.
-/

set_option autoImplicit false
set_option relaxedAutoImplicit false

namespace Wayfinder.CommandLine

/-- An option that takes a value. -/
inductive Setting
  | context
  | file
  | token
  | domain
  | logLevel
  deriving DecidableEq, Repr

/-- An option that takes no value. -/
inductive Mark
  | short
  | skipVerification
  | help
  | version
  deriving DecidableEq, Repr

/-- An option. -/
inductive Choice
  | setting (s : Setting)
  | mark (m : Mark)
  deriving DecidableEq, Repr

/-- The long name of a setting. -/
def Setting.name : Setting → String
  | .context => "context"
  | .file => "file"
  | .token => "token"
  | .domain => "domain"
  | .logLevel => "log-level"

/-- The long name of a mark. -/
def Mark.name : Mark → String
  | .short => "short"
  | .skipVerification => "insecure-skip-tls-verify"
  | .help => "help"
  | .version => "version"

namespace Choice

/-- All options, in the order in which they are explained. -/
def all : List Choice :=
  [.setting .context, .mark .short, .setting .file, .setting .token, .setting .domain,
    .mark .skipVerification, .setting .logLevel, .mark .help, .mark .version]

/-- The long name of an option. -/
def name : Choice → String
  | .setting s => s.name
  | .mark m => m.name

/-- The option of a long name. -/
def ofName? (name : String) : Option Choice := all.find? (·.name == name)

/-- The letter of an option, if it has one. -/
def letter? : Choice → Option Char
  | .setting .file => some 'f'
  | .setting .logLevel => some 'l'
  | .mark .short => some 's'
  | .mark .help => some 'h'
  | .mark .version => some 'V'
  | _ => none

/-- The option of a letter. -/
def ofLetter? (c : Char) : Option Choice := all.find? (·.letter? == some c)

theorem ofName?_name (o : Choice) : ofName? o.name = some o := by
  cases o with
  | setting s => cases s <;> decide
  | mark m => cases m <;> decide

theorem ofLetter?_of_letter? (o : Choice) (c : Char) (h : o.letter? = some c) :
    ofLetter? c = some o := by
  cases o with
  | setting s => cases s <;> simp [letter?] at h <;> subst h <;> decide
  | mark m => cases m <;> simp [letter?] at h <;> subst h <;> decide

end Choice

/-- Why a command line is not followed. -/
inductive Refusal
  /-- No option is called so, or there is already a path. -/
  | unknown (word : String)
  /-- An option stands without its value. -/
  | missingValue (s : Setting)
  /-- The path of a file is empty. -/
  | emptyValue (s : Setting)
  /-- A value stands with an option that takes none. -/
  | unwantedValue (m : Mark)
  /-- An option stands twice. -/
  | repeated (o : Choice)
  /-- The operator asks how to use the command. -/
  | help
  /-- The operator asks for the version. -/
  | version
  deriving DecidableEq, Repr

/-- The exit code of a command line that is not followed. -/
def Refusal.exitCode : Refusal → Nat
  | .help | .version => 0
  | _ => 2

/-- What a command line asks for. -/
structure Invocation where
  /-- The path to go to, or `-` for the previous target. -/
  path : Option String
  /-- The name of the context that is managed. -/
  context : String
  /-- Whether only the place is reported. -/
  short : Bool
  /-- The kubeconfig file, or `-` for standard output. -/
  file : Option String
  token : Option String
  domain : String
  /-- Whether endpoints are trusted without verification. -/
  skipsVerification : Bool
  logLevel : String
  deriving DecidableEq, Repr

namespace Invocation

/-- Whether the kubeconfig is printed instead of saved. -/
def toOutput (i : Invocation) : Bool := i.file == some "-"

/-- Whether the previous target is asked for. -/
def toPrevious (i : Invocation) : Bool := i.path == some "-"

end Invocation

end Wayfinder.CommandLine
