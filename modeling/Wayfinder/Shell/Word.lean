/-!
The words of a shell script, and the operators between them. What stands in quotes is kept apart,
for it is not cut into fields. Main statement: cutting off a closing bracket loses nothing
(`enclosed_eq`).
-/

set_option autoImplicit false
set_option relaxedAutoImplicit false

namespace Wayfinder.Shell

/-- Why a script can not be read. -/
inductive ScriptFault
  | openQuote
  | openBracket
  | openBackquote
  | unexpected (what : String)
  | ended
  deriving DecidableEq, Repr

/-- The wording of a fault. -/
def ScriptFault.message : ScriptFault → String
  | .openQuote => "Unterminated quoted string"
  | .openBracket => "end of file unexpected (expecting \")\")"
  | .openBackquote => "EOF in backquote substitution"
  | .unexpected what => "\"" ++ what ++ "\" unexpected"
  | .ended => "end of file unexpected"

/-- What is put in place of a dollar sign. -/
inductive Expansion
  | value (name : String)
  /-- The value of a variable, or a text when it has none. -/
  | valueOr (name text : String)
  /-- The output of a script. -/
  | output (script : List Char)
  deriving DecidableEq, Repr

/-- A part of a word. -/
inductive Part
  | text (l : List Char)
  | quoted (l : List Char)
  | expansion (e : Expansion) (isQuoted : Bool)
  deriving DecidableEq, Repr

/-- A word. -/
abbrev Word : Type := List Part

/-- A word or an operator. -/
inductive Token
  | word (w : Word)
  | operator (s : String)
  | redirection (channel : Nat) (s : String)
  deriving DecidableEq, Repr

/-- Whether a character can begin a name. -/
def isNameStart (c : Char) : Bool := c.isAlpha || c == '_'

/-- Whether a character can stand in a name. -/
def isNameChar (c : Char) : Bool := c.isAlphanum || c == '_'

/-- Whether a character alone names a value. -/
def isSign (c : Char) : Bool := c.isDigit || "?$#@*".toList.contains c

/-- Whether a character ends a word. -/
def endsWord (c : Char) : Bool := " \t\n;&|()<>".toList.contains c

/-- A text up to the next occurrence of a mark, and what follows that. -/
def upTo (mark : Char) (l : List Char) : Option (List Char × List Char) :=
  match l.dropWhile (· != mark) with
  | [] => none
  | _ :: rest => some (l.takeWhile (· != mark), rest)

/-- A text up to the next mark that no backslash stands before, and what follows that. -/
def upToBare (mark : Char) : List Char → Option (List Char × List Char)
  | [] => none
  | '\\' :: c :: rest => (upToBare mark rest).map fun r => ('\\' :: c :: r.1, r.2)
  | c :: rest =>
    if c = mark then some ([], rest)
    else (upToBare mark rest).map fun r => (c :: r.1, r.2)

/-- What a character stands in. -/
inductive Quoting
  | bare
  | single
  | double
  /-- Behind a backslash; between double quotes or not. -/
  | escaped (inDouble : Bool)
  deriving DecidableEq, Repr

/-- What the character after a character stands in. -/
def Quoting.after (q : Quoting) (c : Char) : Quoting :=
  match q with
  | .single => if c = '\'' then .bare else .single
  | .escaped inDouble => if inDouble then .double else .bare
  | .double => if c = '\\' then .escaped true else if c = '"' then .bare else .double
  | .bare =>
    if c = '\\' then .escaped false
    else if c = '"' then .double
    else if c = '\'' then .single
    else .bare

/-- A text up to the bracket that closes it, with a number of brackets to be closed before it.
Brackets in quotes do not count. -/
def enclosed (q : Quoting) (depth : Nat) : List Char → Option (List Char × List Char)
  | [] => none
  | c :: rest =>
    if q = .bare ∧ c = ')' ∧ depth = 0 then some ([], rest)
    else
      let depth :=
        if q = .bare then
          if c = '(' then depth + 1 else if c = ')' then depth - 1 else depth
        else depth
      (enclosed (q.after c) depth rest).map fun r => (c :: r.1, r.2)

theorem enclosed_eq {q : Quoting} {n : Nat} {l inside rest : List Char}
    (h : enclosed q n l = some (inside, rest)) : l = inside ++ ')' :: rest := by
  induction l generalizing q n inside with
  | nil => simp [enclosed] at h
  | cons c l ih =>
    rw [enclosed] at h
    split at h
    · next hc =>
      obtain ⟨rfl, rfl⟩ := by simpa using h
      rw [hc.2.1]
      rfl
    · obtain ⟨r, hr, he⟩ := Option.map_eq_some_iff.1 h
      obtain ⟨rfl, rfl⟩ := Prod.mk.inj he
      rw [ih hr]
      rfl

/-- The text in braces, as a value. -/
def braced (l : List Char) : Expansion :=
  let name := l.takeWhile isNameChar
  match l.drop name.length with
  | ':' :: '-' :: text => .valueOr (String.ofList name) (String.ofList text)
  | _ => .value (String.ofList l)

/-- What follows a dollar sign, when it stands for something. -/
def expansion? : List Char → Except ScriptFault (Option (Expansion × List Char))
  | '(' :: rest =>
    match enclosed .bare 0 rest with
    | none => .error .openBracket
    | some (script, rest) => .ok (some (.output script, rest))
  | '\x7b' :: rest =>
    match upTo '\x7d' rest with
    | none => .error .ended
    | some (inside, rest) => .ok (some (braced inside, rest))
  | c :: rest =>
    if isNameStart c then
      .ok (some (.value (String.ofList (c :: rest.takeWhile isNameChar)),
        rest.dropWhile isNameChar))
    else if isSign c then .ok (some (.value (String.ofList [c]), rest))
    else .ok none
  | [] => .ok none

/-- What stands between backquotes, as a script. -/
def backquoted (l : List Char) : Except ScriptFault (Expansion × List Char) :=
  match upToBare '\x60' l with
  | none => .error .openBackquote
  | some (script, rest) => .ok (.output script, rest)

/-- The characters that a backslash quotes between double quotes. -/
def isQuotable (c : Char) : Bool := c == '$' || c == '"' || c == '\\' || c == '\x60'

/-- The parts up to the end of double quotes. -/
def doubled : Nat → List Char → Except ScriptFault (Word × List Char)
  | 0, _ => .error .openQuote
  | _ + 1, [] => .error .openQuote
  | fuel + 1, c :: rest => do
    if c = '"' then .ok ([], rest)
    else
      let (part, rest) ← match c, rest with
        | '\\', d :: rest =>
          if d = '\n' then .ok (Part.quoted [], rest)
          else if isQuotable d then .ok (.quoted [d], rest)
          else .ok (.quoted ['\\', d], rest)
        | '$', rest => do
          match ← expansion? rest with
          | none => .ok (.quoted ['$'], rest)
          | some (e, rest) => .ok (.expansion e true, rest)
        | '\x60', rest => do
          let (e, rest) ← backquoted rest
          .ok (.expansion e true, rest)
        | c, rest => .ok (.quoted [c], rest)
      let (more, rest) ← doubled fuel rest
      .ok (part :: more, rest)

/-- The parts of a word, and what follows it. -/
def wordAt : Nat → List Char → Except ScriptFault (Word × List Char)
  | 0, l => .ok ([], l)
  | _ + 1, [] => .ok ([], [])
  | fuel + 1, c :: rest => do
    if endsWord c then .ok ([], c :: rest)
    else
      let (parts, rest) ← match c, rest with
        | '\'', rest =>
          match upTo '\'' rest with
          | none => .error ScriptFault.openQuote
          | some (inside, rest) => .ok ([Part.quoted inside], rest)
        | '"', rest => do
          let (parts, rest) ← doubled (rest.length + 1) rest
          .ok (.quoted [] :: parts, rest)
        | '\\', d :: rest => .ok (if d = '\n' then [] else [.quoted [d]], rest)
        | '$', rest => do
          match ← expansion? rest with
          | none => .ok ([.text ['$']], rest)
          | some (e, rest) => .ok ([.expansion e false], rest)
        | '\x60', rest => do
          let (e, rest) ← backquoted rest
          .ok ([.expansion e false], rest)
        | c, rest => .ok ([.text [c]], rest)
      let (more, rest) ← wordAt fuel rest
      .ok (parts ++ more, rest)

/-- An operator at the start of a text. -/
def operator? : List Char → Option (Token × List Char)
  | '\n' :: rest => some (.operator "\n", rest)
  | ';' :: rest => some (.operator ";", rest)
  | '&' :: '&' :: rest => some (.operator "&&", rest)
  | '&' :: rest => some (.operator "&", rest)
  | '|' :: '|' :: rest => some (.operator "||", rest)
  | '|' :: rest => some (.operator "|", rest)
  | '(' :: rest => some (.operator "(", rest)
  | ')' :: rest => some (.operator ")", rest)
  | '>' :: '&' :: rest => some (.redirection 1 ">&", rest)
  | '>' :: '>' :: rest => some (.redirection 1 ">>", rest)
  | '>' :: '|' :: rest => some (.redirection 1 ">", rest)
  | '>' :: rest => some (.redirection 1 ">", rest)
  | '<' :: rest => some (.redirection 0 "<", rest)
  | _ => none

/-- The words and operators of a script. -/
def tokens : Nat → List Char → Except ScriptFault (List Token)
  | 0, _ => .ok []
  | _ + 1, [] => .ok []
  | fuel + 1, c :: rest =>
    if c = ' ' || c = '\t' then tokens fuel rest
    else if c = '#' then tokens fuel (rest.dropWhile (· != '\n'))
    else
      let digits := (c :: rest).takeWhile Char.isDigit
      let after := (c :: rest).dropWhile Char.isDigit
      match digits, operator? after with
      | _ :: _, some (.redirection _ s, rest) => do
        let more ← tokens fuel rest
        .ok (.redirection ((String.ofList digits).toNat?.getD 0) s :: more)
      | [], some (t, rest) => do
        let more ← tokens fuel rest
        .ok (t :: more)
      | _, _ => do
        let (w, rest) ← wordAt (rest.length + 2) (c :: rest)
        let more ← tokens fuel rest
        .ok (.word w :: more)

end Wayfinder.Shell
