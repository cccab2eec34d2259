import Wayfinder.Shell.Word

/-!
Shell scripts: simple commands in pipelines, one after the other or depending on how the one before
has ended.
-/

set_option autoImplicit false
set_option relaxedAutoImplicit false

namespace Wayfinder.Shell

/-- Where the output of a command goes to, or its input comes from. -/
structure Redirection where
  channel : Nat
  operator : String
  target : Word
  deriving DecidableEq, Repr

/-- A command with its words. -/
structure Simple where
  assignments : List (String × Word) := []
  words : List Word := []
  redirections : List Redirection := []
  deriving DecidableEq, Repr

/-- Whether a command has no parts yet. -/
def Simple.isEmpty (c : Simple) : Bool :=
  c.assignments.isEmpty && c.words.isEmpty && c.redirections.isEmpty

/-- When a pipeline is run. -/
inductive Condition
  | always
  | afterSuccess
  | afterFailure
  deriving DecidableEq, Repr

/-- Commands of which each reads what the one before it has written. -/
structure Pipeline where
  condition : Condition := .always
  isNegated : Bool := false
  commands : List Simple := []
  deriving DecidableEq, Repr

/-- A script. -/
abbrev Script : Type := List Pipeline

namespace Word

/-- The characters of a word that is not quoted at all. -/
def bare? : Word → Option (List Char)
  | [] => some []
  | .text l :: rest => (bare? rest).map (l ++ ·)
  | _ => none

/-- The characters at the start of a word before the first quote or expansion, and the parts behind
them. -/
def front : Word → List Char × Word
  | .text l :: rest => let (more, rest) := front rest; (l ++ more, rest)
  | w => ([], w)

/-- The name and the value when a word gives a variable its value. -/
def assignment? (w : Word) : Option (String × Word) :=
  let (l, rest) := front w
  let name := l.takeWhile isNameChar
  match name, l.drop name.length with
  | c :: _, '=' :: value =>
    if isNameStart c then some (String.ofList name, .text value :: rest) else none
  | _, _ => none

end Word

/-- Adds a word to a command. -/
def Simple.add (c : Simple) (w : Word) : Simple :=
  match if c.words.isEmpty then Word.assignment? w else none with
  | some assignment => { c with assignments := c.assignments ++ [assignment] }
  | none => { c with words := c.words ++ [w] }

/-- The pipelines of tokens; `p` and `c` are the pipeline and the command that are being read. -/
def pipelines (p : Pipeline) (c : Simple) : List Token → Except ScriptFault Script
  | [] =>
    if !c.isEmpty then .ok [{ p with commands := p.commands ++ [c] }]
    else if p.commands.isEmpty && !p.isNegated && p.condition == .always then .ok []
    else .error .ended
  | .word w :: rest =>
    if c.isEmpty && p.commands.isEmpty && Word.bare? w == some ['!'] then
      pipelines { p with isNegated := !p.isNegated } c rest
    else pipelines p (c.add w) rest
  | .redirection channel operator :: .word target :: rest =>
    pipelines p
      { c with redirections := c.redirections ++ [{ channel, operator, target }] } rest
  | .redirection _ _ :: .operator s :: _ => .error (.unexpected s)
  | .redirection _ s :: _ => .error (.unexpected s)
  | .operator s :: rest =>
    if s = "(" || s = ")" then .error (.unexpected s)
    else if c.isEmpty then
      if s = "\n" then pipelines p c rest else .error (.unexpected s)
    else if s = "|" then pipelines { p with commands := p.commands ++ [c] } {} rest
    else
      let condition : Condition :=
        if s = "&&" then .afterSuccess else if s = "||" then .afterFailure else .always
      match pipelines { condition } {} rest with
      | .error fault => .error fault
      | .ok more => .ok ({ p with commands := p.commands ++ [c] } :: more)

/-- Reads a script. -/
def Script.read (text : List Char) : Except ScriptFault Script :=
  match tokens (text.length + 1) text with
  | .error fault => .error fault
  | .ok l => pipelines {} {} l

end Wayfinder.Shell
