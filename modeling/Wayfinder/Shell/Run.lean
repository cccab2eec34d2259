import Wayfinder.Shell.Script
import Wayfinder.Shell.Utility

/-!
Running shell scripts, without starting a process: the commands that a script calls are those of
`Utility`, and the shell's own. No file is changed. `launch` starts one of these commands, or a
shell, as a credential plugin.
-/

set_option autoImplicit false
set_option relaxedAutoImplicit false

namespace Wayfinder.Shell

open Credential

/-- The state of a shell. -/
structure Machine where
  disk : Files.Disk
  /-- The name that the shell goes by in its messages. -/
  name : String
  args : List String := []
  bindings : List (String × String) := []
  input : List UInt8 := []
  status : Nat := 0
  output : List UInt8 := []
  errors : List UInt8 := []
  ending : Option Ending := none

/-- The number of the process of a shell. -/
def processNumber : String := "4321"

namespace Machine

/-- The value of a name. -/
def value? (m : Machine) (name : String) : Option String :=
  match name with
  | "?" => some (toString m.status)
  | "$" => some processNumber
  | "#" => some (toString m.args.length)
  | "0" => some m.name
  | "@" => some (" ".intercalate m.args)
  | "*" => some (" ".intercalate m.args)
  | name =>
    match name.toNat? with
    | some n => m.args[n - 1]?
    | none => m.bindings.lookup name

/-- Gives a variable its value. -/
def set (m : Machine) (name value : String) : Machine :=
  { m with bindings := (name, value) :: m.bindings.filter (·.1 != name) }

/-- A message of a shell. -/
def complain (m : Machine) (message : String) : List UInt8 :=
  octetsOfText (m.name ++ ": 1: " ++ message ++ "\n")

end Machine

/-- How a script is run in a state; a script within a script is run so too. -/
abbrev Runner : Type := Machine → List Char → Machine

/-- The text that octets spell. -/
def textOf (bytes : List UInt8) : String := String.ofList (Text.decodeLossy bytes)

/-- The state of cutting into fields: those that are complete, and the one at hand. -/
structure Cutting where
  fields : List String := []
  current : Option (List Char) := none

namespace Cutting

/-- Adds to the field at hand. -/
def add (c : Cutting) (l : List Char) : Cutting :=
  { c with current := some (c.current.getD [] ++ l) }

/-- Completes the field at hand. -/
def close (c : Cutting) : Cutting :=
  match c.current with
  | none => c
  | some l => { fields := c.fields ++ [String.ofList l], current := none }

/-- Adds a text in which white space ends a field. -/
def addOpen (c : Cutting) (l : List Char) : Cutting :=
  l.foldl (fun c a => if a == ' ' || a == '\t' || a == '\n' then c.close else c.add [a]) c

end Cutting

/-- The value of an expansion, and the state after it. -/
def expand (run : Runner) (m : Machine) : Expansion → Machine × String
  | .value name => (m, (m.value? name).getD "")
  | .valueOr name text => (m, ((m.value? name).filter (!·.isEmpty)).getD text)
  | .output script =>
    let inner := run { m with output := [], errors := [] } script
    let status := match inner.ending with
      | some (.exit code) => code
      | some (.signal number) => 128 + number
      | none => inner.status
    let printed := (textOf inner.output).toList.filter (· != '\x00')
    ({ m with status, errors := m.errors ++ inner.errors },
      String.ofList ((printed.reverse.dropWhile (· == '\n')).reverse))

/-- Cuts a word into fields. -/
def cut (run : Runner) : Machine → Cutting → Word → Machine × Cutting
  | m, c, [] => (m, c.close)
  | m, c, .text l :: rest => cut run m (c.add l) rest
  | m, c, .quoted l :: rest => cut run m (c.add l) rest
  | m, c, .expansion e isQuoted :: rest =>
    let (m, value) := expand run m e
    cut run m (if isQuoted then c.add value.toList else c.addOpen value.toList) rest

/-- The fields of words. -/
def fieldsOf (run : Runner) (m : Machine) (words : List Word) : Machine × List String :=
  words.foldl (fun (m, fields) w =>
    let (m, c) := cut run m {} w
    (m, fields ++ c.fields)) (m, [])

/-- The text of a word that is not cut. -/
def wholeText (run : Runner) (m : Machine) (w : Word) : Machine × String :=
  w.foldl (fun (m, s) part =>
    match part with
    | .text l => (m, s ++ String.ofList l)
    | .quoted l => (m, s ++ String.ofList l)
    | .expansion e _ =>
      let (m, value) := expand run m e
      (m, s ++ value)) (m, "")

/-- Where what is written goes. -/
inductive Sink
  | output
  | errors
  | nowhere
  deriving DecidableEq, Repr

/-- Where the two channels of a command go. -/
structure Channels where
  output : Sink := .output
  errors : Sink := .errors

/-- Leads a channel elsewhere. -/
def Channels.lead (c : Channels) (r : Redirection) (target : String) : Channels :=
  let sink : Sink :=
    if target = "1" && r.operator = ">&" then c.output
    else if target = "2" && r.operator = ">&" then c.errors
    else if target = "/dev/stdout" then c.output
    else if target = "/dev/stderr" then c.errors
    else .nowhere
  match r.channel with
  | 1 => { c with output := sink }
  | 2 => { c with errors := sink }
  | _ => c

/-- Follows redirections; answers the channels and the input, or a file that can not be read. -/
def redirect (run : Runner) (m : Machine) (input : List UInt8) :
    Channels → List Redirection → Machine × Except String (Channels × List UInt8)
  | c, [] => (m, .ok (c, input))
  | c, r :: rest =>
    let (m, target) := wholeText run m r.target
    if r.operator = "<" then
      if target = "/dev/null" then redirect run m [] c rest
      else
        match m.disk.read target with
        | .ok bytes => redirect run m bytes.toList c rest
        | .error _ => (m, .error ("cannot open " ++ target ++ ": No such file"))
    else redirect run m input (c.lead r target) rest

/-- Writes octets to where a channel goes. -/
def Machine.write (m : Machine) (sink : Sink) (bytes : List UInt8) : Machine :=
  match sink with
  | .output => { m with output := m.output ++ bytes }
  | .errors => { m with errors := m.errors ++ bytes }
  | .nowhere => m

/-- Sends a signal to processes. -/
def kill (m : Machine) (args : List String) : Machine × Reply :=
  match Utility.signalAndTargets args with
  | .error reason => (m, { status := 2, errors := m.complain ("kill: " ++ reason) })
  | .ok (signal, targets) =>
    if targets.contains processNumber then
      if Utility.isHarmless signal then (m, {})
      else ({ m with ending := some (.signal signal) }, {})
    else (m, { status := 1, errors := m.complain "kill: No such process\n" })

/-- Ends a shell. -/
def exit (m : Machine) (args : List String) : Machine × Reply :=
  match args with
  | [] => ({ m with ending := some (.exit m.status) }, { status := m.status })
  | word :: _ =>
    match word.toNat? with
    | some n => ({ m with ending := some (.exit (n % 256)) }, { status := n % 256 })
    | none =>
      ({ m with ending := some (.exit 2) },
        { status := 2, errors := m.complain ("exit: Illegal number: " ++ word) })

/-- Gives variables their values, as words spell them. -/
def assignAll (m : Machine) (words : List String) : Machine :=
  words.foldl (fun m word =>
    match word.toList.dropWhile (· != '=') with
    | [] => m
    | _ :: value =>
      m.set (String.ofList (word.toList.takeWhile (· != '='))) (String.ofList value)) m

/-- Calls a utility by its name. -/
def utility (m : Machine) (input : List UInt8) (name : String) (args : List String) : Reply :=
  match Utility.ofName? m.disk m.bindings name args input with
  | some reply => reply
  | none => { status := 127, errors := m.complain (name ++ ": not found") }

/-- Calls a command by its name: one of the shell's own, or a utility. -/
def call (m : Machine) (input : List UInt8) (name : String) (args : List String) :
    Machine × Reply :=
  match name with
  | "exit" => exit m args
  | "kill" => kill m args
  | ":" => (m, {})
  | "set" => (m, {})
  | "export" => (assignAll m args, {})
  | "unset" =>
    ({ m with bindings := m.bindings.filter fun v => !args.contains v.1 }, {})
  | "echo" => (m, Utility.echoEscaped args)
  | "printf" => (m, Utility.printf (m.name ++ ": 1: printf: ") args)
  | "exec" =>
    match args with
    | [] => (m, {})
    | name :: args =>
      let reply := utility m input name args
      ({ m with ending := some (.exit reply.status) }, reply)
  | name => (m, utility m input name args)

/-- Runs a simple command on an input. -/
def runSimple (run : Runner) (m : Machine) (input : List UInt8) (c : Simple) : Machine :=
  let before := { m with status := 0 }
  let (m, fields) := fieldsOf run m c.words
  let assign (m : Machine) : Machine :=
    c.assignments.foldl (fun m (name, w) =>
      let (m, value) := wholeText run m w
      m.set name value) m
  match redirect run m input {} c.redirections with
  | (m, .error message) => { m with status := 2, errors := m.errors ++ m.complain message }
  | (m, .ok (channels, input)) =>
    match fields with
    | [] => if c.words.isEmpty then assign { m with status := before.status } else m
    | name :: args =>
      let (after, reply) := call (assign m) input name args
      let bindings :=
        if c.assignments.isEmpty then after.bindings else m.bindings
      (({ after with bindings, status := reply.status }).write channels.errors reply.errors).write
        channels.output reply.output

/-- Runs the commands of a pipeline, each but the last in a shell of its own. -/
def runCommands (run : Runner) (m : Machine) (input : List UInt8) : List Simple → Machine
  | [] => m
  | [c] => runSimple run m input c
  | c :: rest =>
    let inner := runSimple run { m with output := [] } input c
    match inner.ending with
    | some (.signal number) => { inner with ending := some (.signal number), output := m.output }
    | _ => runCommands run { m with errors := inner.errors } inner.output rest

/-- Runs a pipeline. The last of several commands has a shell of its own too. -/
def runPipeline (run : Runner) (m : Machine) (p : Pipeline) : Machine :=
  let after := runCommands run m m.input p.commands
  let after :=
    match p.commands, after.ending with
    | _ :: _ :: _, some (.exit code) =>
      { after with ending := none, status := code, bindings := m.bindings }
    | _ :: _ :: _, none => { after with bindings := m.bindings }
    | _, _ => after
  if p.isNegated then { after with status := if after.status = 0 then 1 else 0 } else after

/-- Runs pipelines one after the other. -/
def runPipelines (run : Runner) (m : Machine) : Script → Machine
  | [] => m
  | p :: rest =>
    if m.ending.isSome then m
    else
      let isDue := match p.condition with
        | .always => true
        | .afterSuccess => m.status = 0
        | .afterFailure => m.status ≠ 0
      runPipelines run (if isDue then runPipeline run m p else m) rest

/-- Runs the text of a script, with a number of levels of scripts within scripts. -/
def runText : Nat → Runner
  | 0, m, _ => m
  | levels + 1, m, text =>
    match Script.read text with
    | .error fault =>
      { m with
        errors := m.errors ++ m.complain ("Syntax error: " ++ fault.message)
        ending := some (.exit 2) }
    | .ok script => runPipelines (runText levels) m script

/-- Runs a script to its end. -/
def runScript (m : Machine) (text : String) : Ended :=
  let after := runText (text.toList.length + 1) m text.toList
  { ending := after.ending.getD (.exit after.status)
    output := after.output
    errors := after.errors }

/-- Runs a shell with its arguments: a script after `-c`, or in a file. -/
def runShell (m : Machine) : List String → Ended
  | [] => { ending := .exit 0, output := [], errors := [] }
  | word :: args =>
    let isOption := word.toList.head? == some '-' && word.toList.length ≠ 1
    if isOption && word.toList.contains 'c' then
      match args with
      | [] =>
        { ending := .exit 2, output := [],
          errors := octetsOfText (m.name ++ ": 0: -c requires an argument\n") }
      | text :: args =>
        runScript { m with name := args.head?.getD m.name, args := args.tail } text
    else if isOption then runShell m args
    else
      match m.disk.read word with
      | .ok bytes => runScript { m with name := word, args } (textOf bytes.toList)
      | .error _ =>
        { ending := .exit 2, output := [],
          errors := octetsOfText (m.name ++ ": 0: cannot open " ++ word ++ ": No such file\n") }

/-- The directories that hold the commands. -/
def commandDirectories : List String := ["/usr/bin", "/bin"]

/-- The path of the directories that are searched when no variable says it. -/
def usualSearch : String := "/usr/local/bin:/usr/bin:/bin"

/-- The name of a command among those that there are, when a word leads to it. -/
def commandName? (bindings : List (String × String)) (word : String) : Option String :=
  if word.toList.contains '/' then
    commandDirectories.findSome? fun directory => Text.after? word (directory ++ "/")
  else
    let search := Text.split ((bindings.lookup "PATH").getD usualSearch) ':'
    if word.isEmpty || !search.any commandDirectories.contains then none else some word

/-- Starts a command with an environment, as a process would be started. -/
def launch (environment : List (String × String)) (disk : Files.Disk) (l : Launch) :
    Except Files.IoFault Ended :=
  let bindings := (l.env.reverse.map fun v => (v.name, v.value)) ++ environment
  let missing : Files.IoFault :=
    if l.command.toList.contains '/' && disk.holds l.command then
      .denied
    else .notFound
  match commandName? bindings l.command with
  | none => .error missing
  | some name =>
    if ["sh", "dash"].contains name then
      .ok (runShell { disk, name := l.command, bindings } l.args)
    else
      match Utility.ofName? disk bindings name l.args [] with
      | none => .error missing
      | some reply =>
        .ok { ending := .exit reply.status, output := reply.output, errors := reply.errors }

end Wayfinder.Shell
