import Wayfinder.Files.Disk
import Wayfinder.Failure

/-!
Work on a tree of files: the tree, the steps that have been taken on it, and the warnings given on
the way. Files are changed by plans, which are lists of steps with the failure that each stands
for; a plan ends with the first step that goes wrong. Main statement: the tree is what the steps
taken make of it (`Desk.disk_of_take`).
-/

set_option autoImplicit false
set_option relaxedAutoImplicit false

namespace Wayfinder.Files

/-- A step, and the failure that it stands for when it goes wrong. -/
structure Planned where
  step : Step
  failure : IoFault → Failure

/-- The state of the work. -/
structure Desk where
  disk : Disk
  /-- The steps taken so far, the one that went wrong included. -/
  taken : List Step := []
  warnings : List String := []

namespace Desk

/-- Takes a step. -/
def take (d : Desk) (step : Step) : Desk × Option IoFault :=
  let (disk, fault) := d.disk.take step
  ({ d with disk, taken := d.taken ++ [step] }, fault)

/-- Takes the steps of a plan up to the first that goes wrong. -/
def follow (d : Desk) : List Planned → Desk × Except Failure Unit
  | [] => (d, .ok ())
  | planned :: rest =>
    match d.take planned.step with
    | (d, some fault) => (d, .error (planned.failure fault))
    | (d, none) => d.follow rest

/-- Gives a warning. -/
def warn (d : Desk) (warning : String) : Desk := { d with warnings := d.warnings ++ [warning] }

theorem disk_of_take (d : Desk) (step : Step) : (d.take step).1.disk = (d.disk.take step).1 := rfl

end Desk

/-- The trees between the steps of a plan, the first and the last included. -/
def Disk.between (d : Disk) : List Planned → List Disk
  | [] => [d]
  | planned :: rest =>
    match d.take planned.step with
    | (next, some _) => [d, next]
    | (next, none) => d :: next.between rest

/-- Work on files that may fail. -/
abbrev AtDesk (m : Type → Type) (α : Type) : Type := ExceptT Failure (StateT Desk m) α

/-- Whoever takes the steps of plans. -/
abbrev Hand (m : Type → Type) : Type := List Planned → AtDesk m Unit

namespace AtDesk

variable {m : Type → Type} [Monad m] {α : Type}

/-- The files as they are. -/
def disk : AtDesk m Disk := ExceptT.mk fun d => pure (.ok d.disk, d)

/-- An answer that needs no work. -/
def ofExcept (r : Except Failure α) : AtDesk m α := ExceptT.mk (pure r)

/-- Takes the steps of a plan, of which each goes wrong only because of what the tree is like. -/
def follow : Hand m := fun plan =>
  ExceptT.mk fun d => let (d, r) := d.follow plan; pure (r, d)

/-- Gives a warning. -/
def warn (warning : String) : AtDesk m Unit := ExceptT.mk fun d => pure (.ok (), d.warn warning)

/-- Something done elsewhere, which leaves the files alone. -/
def elsewhere (x : ExceptT Failure m α) : AtDesk m α :=
  ExceptT.mk fun d => do
    let r ← x.run
    pure (r, d)

end AtDesk

end Wayfinder.Files
