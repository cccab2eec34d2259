import Wayfinder.Kubeconfig.Store

/-!
The name that leads back to the previous target, kept from one switch to the next.
-/

set_option autoImplicit false
set_option relaxedAutoImplicit false

namespace Wayfinder.Switch

open Files

/-- Where the name is kept. -/
structure Pointer (m : Type → Type) where
  /-- The name, if there is one. -/
  read : ExceptT Failure m (Option String)
  /-- Keeps another name. -/
  write : String → ExceptT Failure m Unit

variable {m : Type → Type} [Monad m]

/-- The same pointer, used next to work on files. -/
def Pointer.elsewhere (p : Pointer m) : Pointer (StateT Desk m) where
  read := AtDesk.elsewhere p.read
  write name := AtDesk.elsewhere (p.write name)

namespace PointerFile

/-- The usual path of the file. -/
def usualPath (env : String → Option String) : String :=
  Path.join (Path.join (Store.home env) ".up") "last-context"

/-- The name in a text: the text without white space around it, unless nothing is left. -/
def nameIn (text : String) : Option String :=
  let name := Text.trim text
  if name.isEmpty then none else some name

/-- The name that the file holds. -/
def read (path : String) (disk : Disk) : Except Failure (Option String) :=
  match disk.readText path with
  | .ok text => .ok (nameIn text)
  | .error .notFound => .ok none
  | .error f => .error (Store.fault "Failed to read last context" path f)

/-- The steps that put a name into the file, on a line of its own. -/
def plan (path name : String) : List Planned :=
  let writing := Store.fault "Failed to write last context" path
  let directory := match Path.parent? path with
    | none => []
    | some parent =>
      [{ step := .makeDirectories parent
         failure := Store.fault "Failed to create directory" parent : Planned }]
  directory ++
    [{ step := .truncate path, failure := writing },
     { step := .fill path (Text.encode (name ++ "\n")), failure := writing }]

/-- The pointer that is kept in a file, written by the hand of someone. -/
def pointerBy (hand : Hand m) (path : String) : Pointer (StateT Desk m) where
  read := do
    let disk ← AtDesk.disk
    AtDesk.ofExcept (read path disk)
  write name := hand (plan path name)

/-- The pointer that is kept in a file. -/
def pointer (path : String) : Pointer (StateT Desk m) := pointerBy AtDesk.follow path

end PointerFile

end Wayfinder.Switch
