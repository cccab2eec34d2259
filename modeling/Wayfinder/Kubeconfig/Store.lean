import Wayfinder.Kubeconfig.Document
import Wayfinder.Files.Desk
import Wayfinder.Text.Blank

/-!
The file of a kubeconfig. A missing or blank file is the empty kubeconfig. Saving writes a file next
to it and then moves that into its place.
-/

set_option autoImplicit false
set_option relaxedAutoImplicit false

namespace Wayfinder

open Files

/-- Where a kubeconfig is kept. -/
structure Store where
  path : String
  deriving DecidableEq, Repr

namespace Store

/-- The home directory of an environment. -/
def home (env : String → Option String) : String :=
  ((env "HOME").filter (!·.isEmpty)).getD "."

/-- The usual path: the first one that the environment lists, or else one in the home
directory. -/
def usualPath (env : String → Option String) : String :=
  let listed := (env "KUBECONFIG").bind fun list =>
    ((Text.split list ':').map Text.trim).find? (!·.isEmpty)
  listed.getD (Path.join (Path.join (home env) ".kube") "config")

/-- The failure of a step on the file. -/
def fault (what path : String) (f : IoFault) : Failure :=
  .config (what ++ " " ++ path ++ ": " ++ f.message)

/-- Reads the kubeconfig. -/
def load (s : Store) (disk : Disk) : Except Failure Kubeconfig :=
  if !disk.holds s.path then .ok {}
  else
    match disk.readText s.path with
    | .error f => .error (fault "Failed to read kubeconfig" s.path f)
    | .ok text =>
      if (Text.trim text).isEmpty then .ok {}
      else
        match Kubeconfig.parse? text with
        | none => .error (.config ("Failed to parse kubeconfig " ++ s.path ++ ": not a kubeconfig"))
        | some config => .ok config

/-- The file that the kubeconfig is first written to. -/
def temporaryPath (s : Store) : String := Path.withEnding s.path "tmp"

/-- The permission bits of a file that only its owner may read and write. -/
def privateMode : Nat := 0o600

/-- The steps that replace the file by the given octets. -/
def plan (s : Store) (bytes : ByteArray) : List Planned :=
  let temporary := s.temporaryPath
  let writing := fault "Failed to write temp kubeconfig" temporary
  let directory := match Path.parent? s.path with
    | none => []
    | some parent =>
      if parent.isEmpty then []
      else
        [{ step := .makeDirectories parent
           failure := fault "Failed to create kubeconfig directory" parent }]
  directory ++
    [{ step := .truncate temporary, failure := writing },
     { step := .fill temporary bytes, failure := writing },
     { step := .restrict temporary privateMode
       failure := fun f => .config ("Failed to set permissions on kubeconfig: " ++ f.message) },
     { step := .rename temporary s.path
       failure := fault "Failed to rename temp kubeconfig to" s.path }]

/-- The steps that save a kubeconfig. -/
def savePlan (s : Store) (config : Kubeconfig) : List Planned :=
  s.plan (Text.encode config.render)

variable {m : Type → Type} [Monad m]

/-- Reads the kubeconfig among the files. -/
def loadAtDesk (s : Store) : AtDesk m Kubeconfig := do
  let disk ← AtDesk.disk
  AtDesk.ofExcept (s.load disk)

/-- Saves a kubeconfig among the files, by the hand of someone. -/
def saveBy (s : Store) (hand : Hand m) (config : Kubeconfig) : AtDesk m Unit :=
  hand (s.savePlan config)

/-- Saves a kubeconfig among the files. -/
def save (s : Store) (config : Kubeconfig) : AtDesk m Unit := s.saveBy AtDesk.follow config

end Store

end Wayfinder
