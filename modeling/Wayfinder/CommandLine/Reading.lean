import Wayfinder.CommandLine.Options

/-!
Reading a command line word by word. A value that stands in a word of its own is kept back until the
next word has been looked at, so that a word that is no option at all is refused first. Main
statement: after the separator every word is a path (`Reading.word_of_separated`).
-/

set_option autoImplicit false
set_option relaxedAutoImplicit false

namespace Wayfinder.CommandLine

/-- What the words so far give. -/
structure Given where
  values : List (Setting × String) := []
  marks : List Mark := []
  path : Option String := none
  deriving DecidableEq, Repr

namespace Given

/-- The value of a setting. -/
def value? (g : Given) (s : Setting) : Option String := g.values.lookup s

/-- Gives a setting its value. -/
def put (g : Given) (s : Setting) (value : String) : Except Refusal Given :=
  if (g.value? s).isSome then .error (.repeated (.setting s))
  else if s == .file && value.isEmpty then .error (.emptyValue s)
  else .ok { g with values := g.values ++ [(s, value)] }

/-- Sets a mark. -/
def mark (g : Given) : Mark → Except Refusal Given
  | .help => .error .help
  | .version => .error .version
  | m =>
    if g.marks.contains m then .error (.repeated (.mark m))
    else .ok { g with marks := g.marks ++ [m] }

end Given

/-- What is kept back until the next word has been looked at. -/
inductive Pending
  | nothing
  /-- A setting whose value is the next word. -/
  | awaiting (s : Setting)
  /-- A setting with its value. -/
  | holding (s : Setting) (value : String)
  deriving DecidableEq, Repr

/-- The state of reading. -/
structure Reading where
  given : Given := {}
  pending : Pending := .nothing
  /-- Whether the separator `--` has been read. -/
  separated : Bool := false
  deriving DecidableEq, Repr

namespace Reading

/-- Gives the setting that is kept back its value. -/
def settle (r : Reading) : Except Refusal Reading :=
  match r.pending with
  | .nothing => .ok r
  | .awaiting s => .error (.missingValue s)
  | .holding s value => do
    let given ← r.given.put s value
    .ok { r with given, pending := .nothing }

/-- Reads a mark. -/
def mark (r : Reading) (m : Mark) : Except Refusal Reading := do
  let r ← r.settle
  let given ← r.given.mark m
  .ok { r with given }

/-- Reads a setting, with its value if that stands in the same word. -/
def setting (r : Reading) (s : Setting) (value : Option String) : Except Refusal Reading := do
  let r ← r.settle
  match value with
  | none => .ok { r with pending := .awaiting s }
  | some value =>
    let given ← r.given.put s value
    .ok { r with given }

/-- Reads an option by its long name. -/
def long (r : Reading) (word : List Char) : Except Refusal Reading :=
  let name := String.ofList (word.takeWhile (· != '='))
  let value := match word.dropWhile (· != '=') with
    | [] => none
    | _ :: value => some (String.ofList value)
  match Choice.ofName? name with
  | none => .error (.unknown ("--" ++ name))
  | some (.setting s) => r.setting s value
  | some (.mark m) => if value.isSome then .error (.unwantedValue m) else r.mark m

/-- Reads options by their letters. What follows a setting is its value, after an equals sign or
without one. -/
def letters (r : Reading) : List Char → Except Refusal Reading
  | [] => .ok r
  | c :: rest =>
    match Choice.ofLetter? c with
    | none => .error (.unknown (String.ofList ['-', c]))
    | some (.mark m) =>
      match r.mark m with
      | .error refusal => .error refusal
      | .ok r => letters r rest
    | some (.setting s) =>
      match rest with
      | [] => r.setting s none
      | '=' :: value => r.setting s (some (String.ofList value))
      | value => r.setting s (some (String.ofList value))

/-- Reads a path. -/
def path (r : Reading) (word : String) : Except Refusal Reading :=
  if r.given.path.isSome then .error (.unknown word)
  else do
    let r ← r.settle
    .ok { r with given := { r.given with path := some word } }

/-- Reads a word. -/
def word (r : Reading) (w : String) : Except Refusal Reading :=
  if r.separated then r.path w
  else
    match w.toList with
    | ['-', '-'] => .ok { r with separated := true }
    | '-' :: '-' :: name => r.long name
    | '-' :: c :: rest => r.letters (c :: rest)
    | _ =>
      match r.pending with
      | .awaiting s => .ok { r with pending := .holding s w }
      | _ => r.path w

theorem word_of_separated {r : Reading} (h : r.separated = true) (w : String) :
    r.word w = r.path w := by
  rw [word, if_pos h]

/-- Reads words. -/
def words (r : Reading) : List String → Except Refusal Reading
  | [] => r.settle
  | w :: rest =>
    match r.word w with
    | .error refusal => .error refusal
    | .ok r => words r rest

end Reading

namespace Invocation

/-- What is asked for: what the words give goes before the environment, and that before what is
usual. -/
def ofGiven (g : Given) (env : String → Option String) : Invocation where
  path := g.path
  context := ((g.value? .context).or (env "UP_CONTEXT")).getD "upbound"
  short := g.marks.contains .short
  file := g.value? .file
  token := (g.value? .token).or (env "UP_TOKEN")
  domain := ((g.value? .domain).or (env "UP_DOMAIN")).getD "upbound.io"
  skipsVerification := g.marks.contains .skipVerification
  logLevel := (g.value? .logLevel).getD "warn"

/-- Reads the words of a command line. -/
def read (words : List String) (env : String → Option String) : Except Refusal Invocation :=
  match Reading.words {} words with
  | .error refusal => .error refusal
  | .ok r => .ok (ofGiven r.given env)

end Invocation

end Wayfinder.CommandLine
