import Wayfinder.Files.Path
import Wayfinder.NameMap
import Wayfinder.Text.Utf8

/-!
A tree of files, and the steps that change it. Each step answers the tree after it and what went
wrong, if anything did; making several directories may go wrong half way.

A tree holds directories and files. There are no symbolic links, and no file has two names, so the
exact conditions on saves that are proved of trees hold where there are no links. Everything may be
read and written here, and a step goes wrong only because of what the tree is like. What a step may
leave behind that something else breaks off, a full disk or a denied access, is said by
`Disk.Breaks`.
-/

set_option autoImplicit false
set_option relaxedAutoImplicit false

namespace Wayfinder.Files

/-- Why a step can not be taken. -/
inductive IoFault
  | notFound
  | exists
  | notDirectory
  | isDirectory
  | notText
  | nameTooLong
  | codeZero
  | denied
  deriving DecidableEq, Repr

/-- The wording of a fault. -/
def IoFault.message : IoFault → String
  | .notFound => "No such file or directory (os error 2)"
  | .exists => "File exists (os error 17)"
  | .notDirectory => "Not a directory (os error 20)"
  | .isDirectory => "Is a directory (os error 21)"
  | .notText => "stream did not contain valid UTF-8"
  | .nameTooLong => "File name too long (os error 36)"
  | .codeZero => "file name contained an unexpected NUL byte"
  | .denied => "Permission denied (os error 13)"

/-- What stands at a place. -/
inductive Entry
  /-- A file, with its permission bits. -/
  | file (bytes : ByteArray) (mode : Nat)
  | directory

/-- A tree of files. Places are written with a slash before each name; the root is the empty
text. -/
structure Disk where
  entries : NameMap Entry := ∅
  /-- The place where paths begin that do not begin at the root. -/
  workingDirectory : String := ""

/-- The permission bits of a new file. -/
def usualMode : Nat := 0o644

namespace Disk

/-- What stands at a place. -/
def entry? (d : Disk) (place : String) : Option Entry :=
  if place.isEmpty then some .directory else d.entries.get? place

/-- The place above a place. -/
def above (place : String) : String :=
  String.ofList ((place.toList.reverse.dropWhile (· != '/')).drop 1).reverse

/-- How many octets a name may have. -/
def longestName : Nat := 255

/-- The place that names lead to from a place. All but the last name have to lead to
directories. -/
def follow (d : Disk) (place : String) : List String → Except IoFault String
  | [] => .ok place
  | name :: rest =>
    match d.entry? place with
    | none => .error .notFound
    | some (.file _ _) => .error .notDirectory
    | some .directory =>
      if name = "." then follow d place rest
      else if name = ".." then follow d (above place) rest
      else if longestName < name.utf8ByteSize then .error .nameTooLong
      else follow d (place ++ "/" ++ name) rest

/-- The place of a path. -/
def locate (d : Disk) (path : String) : Except IoFault String :=
  if path.isEmpty then .error .notFound
  else if path.toList.contains '\x00' then .error .codeZero
  else
    d.follow (if Path.isAbsolute path then "" else d.workingDirectory)
      (Path.names path ++ if Path.endsInDirectory path then ["."] else [])

/-- What stands at a path. -/
def look (d : Disk) (path : String) : Except IoFault Entry := do
  let place ← d.locate path
  match d.entry? place with
  | none => .error .notFound
  | some entry => .ok entry

/-- Whether something stands at a path. -/
def holds (d : Disk) (path : String) : Bool :=
  match d.look path with
  | .ok _ => true
  | .error _ => false

/-- Whether a directory stands at a path. -/
def isDirectory (d : Disk) (path : String) : Bool :=
  match d.look path with
  | .ok .directory => true
  | _ => false

/-- The octets of the file at a path. -/
def read (d : Disk) (path : String) : Except IoFault ByteArray :=
  match d.look path with
  | .error fault => .error fault
  | .ok .directory => .error .isDirectory
  | .ok (.file bytes _) => .ok bytes

/-- The text of the file at a path. -/
def readText (d : Disk) (path : String) : Except IoFault String :=
  match d.read path with
  | .error fault => .error fault
  | .ok bytes =>
    match Text.decode bytes with
    | none => .error .notText
    | some text => .ok text

/-- The permission bits of the file at a path. -/
def mode? (d : Disk) (path : String) : Option Nat :=
  match d.look path with
  | .ok (.file _ mode) => some mode
  | _ => none

/-- Puts an entry at a place. -/
def put (d : Disk) (place : String) (entry : Entry) : Disk :=
  { d with entries := d.entries.insert place entry }

/-- Makes one directory. -/
def makeDirectory (d : Disk) (path : String) : Except IoFault Disk := do
  let place ← d.locate path
  match d.entry? place with
  | some _ => .error .exists
  | none => .ok (d.put place .directory)

/-- Makes a directory and those above it, as far as they are missing. The count bounds how many
levels are looked at. -/
def makeDirectories (path : String) : Nat → Disk → Disk × Option IoFault
  | 0, d => (d, some .notFound)
  | levels + 1, d =>
    if path.isEmpty then (d, none)
    else
      match d.makeDirectory path with
      | .ok d => (d, none)
      | .error .notFound =>
        match Path.parent? path with
        | none => (d, some .notFound)
        | some parent =>
          match makeDirectories parent levels d with
          | (d, some fault) => (d, some fault)
          | (d, none) =>
            match d.makeDirectory path with
            | .ok d => (d, none)
            | .error fault => if d.isDirectory path then (d, none) else (d, some fault)
      | .error fault => if d.isDirectory path then (d, none) else (d, some fault)

/-- Opens a file for writing: it is there and empty after that. -/
def truncate (d : Disk) (path : String) : Except IoFault Disk := do
  let place ← d.locate path
  match d.entry? place with
  | some .directory => .error .isDirectory
  | some (.file _ mode) => .ok (d.put place (.file ByteArray.empty mode))
  | none => .ok (d.put place (.file ByteArray.empty usualMode))

/-- Writes the octets of a file that is open. -/
def fill (d : Disk) (path : String) (bytes : ByteArray) : Except IoFault Disk := do
  let place ← d.locate path
  match d.entry? place with
  | some (.file _ mode) => .ok (d.put place (.file bytes mode))
  | some .directory => .error .isDirectory
  | none => .error .notFound

/-- Sets the permission bits of a file. -/
def restrict (d : Disk) (path : String) (mode : Nat) : Except IoFault Disk := do
  let place ← d.locate path
  match d.entry? place with
  | some (.file bytes _) => .ok (d.put place (.file bytes mode))
  | some .directory => .ok d
  | none => .error .notFound

/-- Moves a file to another place, instead of a file that stands there. -/
def rename (d : Disk) (source target : String) : Except IoFault Disk := do
  let source ← d.locate source
  let target ← d.locate target
  match d.entry? source with
  | none => .error .notFound
  | some .directory => .error .isDirectory
  | some (.file bytes mode) =>
    match d.entry? target with
    | some .directory => .error .isDirectory
    | _ =>
      .ok { d with entries := (d.entries.erase source).insert target (.file bytes mode) }

end Disk

/-- A step that changes a tree of files. -/
inductive Step
  | makeDirectories (path : String)
  | truncate (path : String)
  | fill (path : String) (bytes : ByteArray)
  | restrict (path : String) (mode : Nat)
  | rename (source target : String)

/-- What a step that goes wrong as a whole leaves behind. -/
def Disk.orElse (d : Disk) : Except IoFault Disk → Disk × Option IoFault
  | .ok next => (next, none)
  | .error fault => (d, some fault)

/-- Takes a step. -/
def Disk.take (d : Disk) : Step → Disk × Option IoFault
  | .makeDirectories path => Disk.makeDirectories path ((Path.names path).length + 2) d
  | .truncate path => d.orElse (d.truncate path)
  | .fill path bytes => d.orElse (d.fill path bytes)
  | .restrict path mode => d.orElse (d.restrict path mode)
  | .rename source target => d.orElse (d.rename source target)

end Wayfinder.Files
