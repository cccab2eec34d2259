import Wayfinder.Credential.Plugin
import Wayfinder.Shell.Format

/-!
The commands that scripts call. Each answers its status and what it writes.
-/

set_option autoImplicit false
set_option relaxedAutoImplicit false

namespace Wayfinder.Shell

/-- What a command leaves behind. -/
structure Reply where
  status : Nat := 0
  output : List UInt8 := []
  errors : List UInt8 := []
  deriving DecidableEq, Repr

namespace Reply

/-- Writes a text. -/
def text (s : String) : Reply := { output := octetsOfText s }

/-- Fails with a message. -/
def failed (status : Nat) (message : String) : Reply :=
  { status, errors := octetsOfText (message ++ "\n") }

end Reply

namespace Utility

/-- Words with a space between them. -/
def spaced (args : List String) : String := " ".intercalate args

/-- Writes its arguments with their escapes, as scripts do. -/
def echoEscaped (args : List String) : Reply :=
  let isOpen := args.head? == some "-n"
  let args := if isOpen then args.tail else args
  let ending : List UInt8 := if isOpen then [] else [0x0a]
  let text := (spaced args).toList
  let (bytes, ends) := unescape true (text.length + 1) text
  { output := if ends then bytes else bytes ++ ending }

/-- Whether an argument is an option of the plain echo. -/
def isEchoOption (arg : String) : Bool :=
  match arg.toList with
  | '-' :: c :: rest => (c :: rest).all fun c => c == 'n' || c == 'e' || c == 'E'
  | _ => false

/-- Writes its arguments; escapes only count when they are asked for. -/
def echo (args : List String) : Reply :=
  let options := args.takeWhile isEchoOption
  let given := options.flatMap fun o => o.toList.drop 1
  let text := (spaced (args.drop options.length)).toList
  let ending : List UInt8 := if given.contains 'n' then [] else [0x0a]
  match (given.filter (· != 'n')).getLast? with
  | some 'e' =>
    let (bytes, ends) := unescape true (text.length + 1) text
    { output := if ends then bytes else bytes ++ ending }
  | _ => { output := octetsOfText (String.ofList text) ++ ending }

/-- Writes a format. Each complaint is a line after `name`. -/
def printf (name : String) (args : List String) : Reply :=
  match if args.head? == some "--" then args.tail else args with
  | [] => .failed 2 (name ++ "usage: printf format [arg ...]")
  | text :: args =>
    let w := Format.write text.toList (args.length + 1) args
    { status := w.status
      output := w.bytes
      errors := octetsOfText (String.join (w.complaints.map fun c => name ++ c ++ "\n")) }

/-- The octets of a set, with ranges. -/
def set : List UInt8 → List UInt8
  | a :: 0x2d :: b :: rest =>
    if a ≤ b then
      (List.range (b.toNat - a.toNat + 1)).map (fun n => (a.toNat + n).toUInt8) ++ set rest
    else a :: 0x2d :: b :: set rest
  | a :: rest => a :: set rest
  | [] => []

/-- The octets of a set, as a word gives them. -/
def setOf (word : String) : List UInt8 :=
  set (unescape false (word.toList.length + 1) word.toList).1

/-- Leaves out octets of its input, or puts others in their place. -/
def tr (args : List String) (input : List UInt8) : Reply :=
  match args with
  | ["-d", word] => { output := input.filter (!(setOf word).contains ·) }
  | [word, other] =>
    let sources := setOf word
    let targets := setOf other
    let replace (b : UInt8) : UInt8 :=
      match sources.findIdx? (· == b) with
      | none => b
      | some i => ((targets[i]?).or targets.getLast?).getD b
    { output := input.map replace }
  | _ => .failed 1 "tr: missing operand"

/-- Writes its input, or files. -/
def cat (disk : Files.Disk) (args : List String) (input : List UInt8) : Reply :=
  let words := if args.isEmpty then ["-"] else args
  words.foldl (fun reply word =>
    if word = "-" then { reply with output := reply.output ++ input }
    else
      match disk.read word with
      | .ok bytes => { reply with output := reply.output ++ bytes.toList }
      | .error fault =>
        let reason := (fault.message.splitOn " (").head?.getD ""
        { reply with
          status := 1
          errors := reply.errors ++ octetsOfText ("cat: " ++ word ++ ": " ++ reason ++ "\n") }) {}

/-- Writes the values of variables. -/
def printenv (bindings : List (String × String)) (args : List String) : Reply :=
  match args with
  | [] => .text (String.join (bindings.map fun v => v.1 ++ "=" ++ v.2 ++ "\n"))
  | names =>
    { status := if names.all fun name => (bindings.lookup name).isSome then 0 else 1
      output := names.flatMap fun name =>
        match bindings.lookup name with
        | none => []
        | some value => octetsOfText (value ++ "\n") }

/-- Whether a condition holds. -/
def holds (disk : Files.Disk) : List String → Bool
  | [] => false
  | ["!"] => true
  | [word] => !word.isEmpty
  | ["-n", word] => !word.isEmpty
  | ["-z", word] => word.isEmpty
  | ["-e", path] => disk.holds path
  | ["-f", path] => disk.holds path && !disk.isDirectory path
  | ["-d", path] => disk.isDirectory path
  | [a, "=", b] => a == b
  | [a, "!=", b] => a != b
  | "!" :: rest => !holds disk rest
  | _ => false

/-- Tests a condition. -/
def test (disk : Files.Disk) (args : List String) : Reply :=
  { status := if holds disk args then 0 else 1 }

/-- The number of a signal, by its number or its name. -/
def signal? (word : String) : Option Nat :=
  match word.toNat? with
  | some n => some n
  | none =>
    let name := match word.toList with
      | 'S' :: 'I' :: 'G' :: rest => String.ofList rest
      | _ => word
    (Credential.signalNames.findIdx? (· == name)).map (· + 1)

/-- How signals are sent. -/
def killUsage : String :=
  "Usage: kill [-s sigspec | -signum | -sigspec] [pid | job]... or\nkill -l [exitstatus]"

/-- The signal and the processes that arguments name, or what is wrong with them. -/
def signalAndTargets (args : List String) : Except String (Nat × List String) :=
  let checked (r : Nat × List String) : Except String (Nat × List String) :=
    if r.2.isEmpty then .error killUsage else .ok r
  match args with
  | "-s" :: name :: targets =>
    match signal? name with
    | some n => checked (n, targets)
    | none => .error ("invalid signal number or name: " ++ name)
  | first :: targets =>
    match first.toList with
    | '-' :: word =>
      match signal? (String.ofList word) with
      | some n => checked (n, targets)
      | none => .error ("Illegal option " ++ String.ofList ('-' :: word.take 1))
    | _ => checked (15, first :: targets)
  | [] => .error killUsage

/-- Whether a process goes on after a signal. -/
def isHarmless (signal : Nat) : Bool := [0, 17, 18, 23, 28].contains signal

/-- The command of a name, for what is read from `disk` and `input`; commands of scripts alone are
not among them. -/
def ofName? (disk : Files.Disk) (bindings : List (String × String)) (name : String)
    (args : List String) (input : List UInt8) : Option Reply :=
  match name with
  | "echo" => some (echo args)
  | "printf" => some (printf "printf: " args)
  | "true" => some {}
  | "false" => some { status := 1 }
  | "tr" => some (tr args input)
  | "cat" => some (cat disk args input)
  | "printenv" => some (printenv bindings args)
  | "env" => if args.isEmpty then some (printenv bindings []) else none
  | "test" => some (test disk args)
  | "[" => some (test disk args.dropLast)
  | "sleep" => some {}
  | _ => none

end Utility

end Wayfinder.Shell
