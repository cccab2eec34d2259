import Wayfinder.Text.Pieces

/-!
Paths of files as texts: names with slashes between them. A path that begins with a slash begins at
the root; empty names and single dots count for nothing.
-/

set_option autoImplicit false
set_option relaxedAutoImplicit false

namespace Wayfinder.Files.Path

/-- The names of a path. -/
def names (path : String) : List String :=
  (Text.split path '/').filter fun s => !(s == "" || s == ".")

/-- Whether a path begins at the root. -/
def isAbsolute (path : String) : Bool := path.toList.head? == some '/'

/-- Whether a path ends in a slash. -/
def endsInSlash (path : String) : Bool := path.toList.getLast? == some '/'

/-- Whether a path can only lead to a directory: there is a slash behind its last name, with or
without a single dot behind that. -/
def endsInDirectory (path : String) : Bool :=
  endsInSlash path || "/.".toList.isSuffixOf path.toList

/-- Two paths, the second within the first. -/
def join (directory name : String) : String :=
  if isAbsolute name || directory.isEmpty then name
  else if endsInSlash directory then directory ++ name
  else directory ++ "/" ++ name

/-- The end of a path, read from the back, without slashes and single dots. -/
def dropIdle : List Char → List Char
  | '/' :: rest => dropIdle rest
  | '.' :: '/' :: rest => dropIdle rest
  | l => l

/-- The path up to the end of its last name, read from the back. -/
def trimmed (path : String) : List Char :=
  match dropIdle path.toList.reverse with
  | [] => if isAbsolute path then ['/'] else []
  | l => l

/-- The path without its last name; none at the root, and for an empty path. -/
def parent? (path : String) : Option String :=
  match trimmed path with
  | [] => none
  | ['/'] => none
  | l =>
    match dropIdle (l.dropWhile (· != '/')) with
    | [] => some (if isAbsolute path then "/" else "")
    | rest => some (String.ofList rest.reverse)

/-- The last name of a path, if it names a file. -/
def fileName? (path : String) : Option String :=
  match (names path).getLast? with
  | none => none
  | some name => if name = ".." then none else some name

/-- A name without its last dot and what follows it; a dot at its start does not count. -/
def stem (name : String) : String :=
  match name.toList.reverse.dropWhile (· != '.') with
  | [] => name
  | _ :: before => if before.isEmpty then name else String.ofList before.reverse

/-- The path with another ending after the last dot of its last name. -/
def withEnding (path ending : String) : String :=
  match fileName? path with
  | none => path
  | some name =>
    String.ofList ((trimmed path).drop name.toList.length).reverse ++ stem name ++ "." ++ ending

end Wayfinder.Files.Path
