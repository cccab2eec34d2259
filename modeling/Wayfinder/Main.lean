import Wayfinder.Command
import Wayfinder.CommandLine.Reading
import Wayfinder.CommandLine.Usage
import Wayfinder.Shell.Run

/-!
The command line. The files that an invocation looks at are read before, and what it does to them is
done after it. There is no network here: no server can be reached.
-/

set_option autoImplicit false
set_option relaxedAutoImplicit false

namespace Wayfinder.Main

open CommandLine Files

/-- The variables of the environment that have a meaning. -/
def variableNames : List String :=
  ["HOME", "KUBECONFIG", "UP_CONTEXT", "UP_TOKEN", "UP_DOMAIN", "PATH"]

/-- Reads what stands at a path, and puts it there among the files. -/
def look (disk : Disk) (path : String) : IO Disk := do
  let place := (← IO.currentDir) / path
  let levels := (Path.names path).length + 2
  if ← place.isDir then pure (Disk.makeDirectories path levels disk).1
  else if ← place.pathExists then
    let bytes ← IO.FS.readBinFile place
    let disk := (Disk.makeDirectories ((Path.parent? path).getD "") levels disk).1
    match disk.locate path with
    | .ok found => pure (disk.put found (.file bytes usualMode))
    | .error _ => pure disk
  else pure disk

/-- A path and the paths above it. -/
def withParents (path : String) : List String :=
  (List.range ((Path.names path).length + 1)).foldl (fun paths _ =>
    match paths.getLast?.bind Path.parent? with
    | none => paths
    | some parent => paths ++ [parent]) [path]

/-- Takes a step on the files of the machine. -/
def take : Step → IO Unit
  | .makeDirectories path => IO.FS.createDirAll path
  | .truncate path => IO.FS.writeBinFile path ByteArray.empty
  | .fill path bytes => IO.FS.writeBinFile path bytes
  | .restrict path _ =>
    IO.setAccessRights path { user := { read := true, write := true } }
  | .rename source target => IO.FS.rename source target

/-- Does what an invocation asks for; answers its exit code. -/
def follow (env : String → Option String) (invocation : Invocation) : IO Nat := do
  let store := Command.storeOf invocation env
  let pointer := Switch.PointerFile.usualPath env
  let here := (← IO.currentDir).toString
  let start : Disk := (Disk.makeDirectories here ((Path.names here).length + 2)
    { workingDirectory := here }).1
  let disk ← ([store.path, store.temporaryPath, pointer].flatMap withParents).foldlM look start
  let authorities := match store.load disk with
    | .ok config =>
      config.clusters.entries.filterMap fun (e : String × Cluster) => e.2.authorityFile
    | .error _ => []
  let disk ← (authorities.flatMap withParents).foldlM look disk
  let environment := variableNames.filterMap fun name => (env name).map fun value => (name, value)
  let outside : Remote.Outside Id :=
    { send := fun _ => none
      start := Shell.launch environment }
  let (outcome, desk) := (Command.run outside env invocation).run.run { disk }
  let fault ← try
      desk.taken.forM take
      pure none
    catch e => pure (some e)
  desk.warnings.forM fun warning => IO.eprintln ("warning: " ++ warning)
  let result := Command.ending (match outcome, fault with
    | .ok _, some e => .error (.config e.toString)
    | outcome, _ => outcome)
  IO.print result.printed.output
  IO.eprint result.printed.errors
  pure result.exitCode

end Wayfinder.Main

/-- Reads the command line and follows it. -/
def main (words : List String) : IO UInt32 := do
  let found ← Wayfinder.Main.variableNames.mapM fun name => do
    pure (name, ← IO.getEnv name)
  let env (name : String) : Option String := (found.lookup name).join
  match Wayfinder.CommandLine.Invocation.read words env with
  | .ok invocation => return (← Wayfinder.Main.follow env invocation).toUInt32
  | .error refusal =>
    if refusal.exitCode = 0 then IO.print refusal.message else IO.eprint refusal.message
    return refusal.exitCode.toUInt32
