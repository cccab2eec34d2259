import Wayfinder.Switch.Merge
import Wayfinder.Switch.Pointer
import Wayfinder.Place.Accept

/-!
Switching the target of a kubeconfig file, forward to a new target and back to the previous one.
-/

set_option autoImplicit false
set_option relaxedAutoImplicit false

namespace Wayfinder.Switch

open Files

/-- A kubeconfig file whose current target is switched. -/
structure Committer (m : Type → Type) where
  store : Store
  pointer : Pointer (StateT Desk m)
  /-- Checks a kubeconfig before it is saved, among the files as they are. -/
  verify : Disk → Kubeconfig → ExceptT Failure m Unit
  preferred : String

namespace Committer

variable {m : Type → Type} [Monad m]

/-- Keeps the name that leads back. The file is already saved, so a failure is only a warning. -/
def record (c : Committer m) (name : String) : AtDesk m Unit :=
  ExceptT.mk do
    match ← (c.pointer.write name).run with
    | .ok _ => pure (.ok ())
    | .error failure =>
      (AtDesk.warn ("Failed to record previous context " ++ Text.quoted name ++ ": " ++
        failure.message)).run

/-- Whether the file already leads to the target of a kubeconfig. -/
def isCurrent (c : Committer m) (file config : Kubeconfig) : Bool :=
  file.current == c.preferred && sameTarget file c.preferred config config.current

/-- Switches the file to the target of a kubeconfig, by the hand of someone who saves it. -/
def writeBy (c : Committer m) (hand : Hand m) (config : Kubeconfig) : AtDesk m Unit := do
  let file ← c.store.loadAtDesk
  if c.isCurrent file config then pure ()
  else do
    let merged ← AtDesk.ofExcept (merge file config config.current c.preferred)
    let disk ← AtDesk.disk
    AtDesk.elsewhere (c.verify disk merged.config)
    c.store.saveBy hand merged.config
    c.record merged.last

/-- Switches the file to the target of a kubeconfig. -/
def write (c : Committer m) (config : Kubeconfig) : AtDesk m Unit := c.writeBy AtDesk.follow config

/-- Switches the file back to the previous target, by the hand of someone who saves it; answers what
is saved. -/
def swapBy (c : Committer m) (hand : Hand m) : AtDesk m Kubeconfig := do
  match ← c.pointer.read with
  | none => throw (.navigation "no previous context to switch to")
  | some name => do
    let file ← c.store.loadAtDesk
    let switched ← AtDesk.ofExcept (activate file name c.preferred)
    c.store.saveBy hand switched.config
    c.record switched.last
    pure switched.config

/-- Switches the file back to the previous target. -/
def swap (c : Committer m) : AtDesk m Kubeconfig := c.swapBy AtDesk.follow

/-- The same, for places to write to. -/
def writer (c : Committer m) : Writer (StateT Desk m) where
  name := c.preferred
  write := c.write

end Committer

/-- Keeps the text of the last kubeconfig written, instead of a file. -/
def outlet (name : String) : Writer (StateM (Option String)) where
  name
  write config := ExceptT.mk fun _ => pure (.ok (), some config.render)

end Wayfinder.Switch
