import Wayfinder.Yaml.Reach
import Wayfinder.Number.Decimal

/-!
The scalars of a YAML text: plain ones, ones in quotes, and blocks of lines. Each reader answers
the text of the scalar and the place after it. Line breaks within a plain or quoted scalar, and
within a folded block, stand for single spaces.
-/

set_option autoImplicit false
set_option relaxedAutoImplicit false

namespace Wayfinder.Yaml

/-- White space between two words of a scalar: blanks within a line, or line breaks. -/
structure Spacing where
  /-- The blanks since the last word, as long as there was no line break. -/
  blanks : List Char := []
  /-- Whether a line has ended since the last word. -/
  broken : Bool := false
  first : List Char := []
  more : List Char := []

/-- What white space stands for between two words: a single line break for a space, further ones
for themselves. -/
def Spacing.text (s : Spacing) : List Char :=
  if s.broken then
    match s.first with
    | '\n' :: _ => if s.more.isEmpty then [' '] else s.more
    | _ => s.first ++ s.more
  else s.blanks

/-- Passes over white space. A tab to the left of column `margin` on a new line is refused. -/
def takeSpacing (margin : Nat) : Nat → Spacing → Reach → Option (Spacing × Reach)
  | 0, _, _ => none
  | fuel + 1, s, r =>
    match r.rest with
    | [] => some (s, r)
    | c :: _ =>
      if isSpacing c then
        if s.broken && r.column < margin && c == '\t' then none
        else if s.broken then takeSpacing margin fuel s (r.skip 1)
        else takeSpacing margin fuel { s with blanks := s.blanks ++ [c] } (r.skip 1)
      else if isBreak c then
        let (ended, next) := r.takeBreak
        if s.broken then takeSpacing margin fuel { s with more := s.more ++ ended } next
        else takeSpacing margin fuel { s with blanks := [], broken := true, first := ended } next
      else some (s, r)

/-- The characters that end a plain scalar within brackets. -/
def isFlowMark (c : Char) : Bool :=
  c == ',' || c == '[' || c == ']' || c == '\x7b' || c == '\x7d'

/-- The characters of a plain word; a colon before a bracket is refused within brackets. -/
def plainWord? (flow : Bool) : List Char → Option (List Char)
  | [] => some []
  | c :: rest =>
    if isSpacing c || isBreak c then some []
    else if c == ':' && flow &&
        (match rest with | d :: _ => isFlowMark d || d == '?' | [] => false) then none
    else if (c == ':' && atGap rest) || (flow && isFlowMark c) then some []
    else (plainWord? flow rest).map (c :: ·)

/-- Reads a plain scalar word by word. Lines to the left of `margin` do not belong to it, unless
it stands within brackets. Answers its text, the white space after it and the place after that. -/
def plainWords (flow : Bool) (margin : Nat) :
    Nat → List Char → Spacing → Reach → Option (List Char × Spacing × Reach)
  | 0, _, _, _ => none
  | fuel + 1, done, before, r =>
    if r.atDocumentMark || r.rest.head? == some '#' then some (done, before, r)
    else
      match plainWord? flow r.rest with
      | none => none
      | some word =>
        let after := r.skip word.length
        let done := if word.isEmpty then done else done ++ before.text ++ word
        let before := if word.isEmpty then before else {}
        if !(match after.rest with | c :: _ => isSpacing c || isBreak c | [] => false) then
          some (done, before, after)
        else
          match takeSpacing margin (after.rest.length + 1) before after with
          | none => none
          | some (spacing, next) =>
            if !flow && next.column < margin then some (done, spacing, next)
            else plainWords flow margin fuel done spacing next

/-- Reads a plain scalar. Answers its text, whether a line ends after it, and the place after the
white space that follows it. -/
def plainScalar? (flow : Bool) (margin : Nat) (r : Reach) : Option (String × Bool × Reach) :=
  (plainWords flow margin (r.rest.length + 1) [] {} r).map fun (text, after, next) =>
    (String.ofList text, after.broken, next)

/-- The character that digits of base sixteen name. -/
def namedChar? (count : Nat) (l : List Char) : Option (List Char) := do
  let digits := l.take count
  let code ← Decimal.nat? 16 digits
  if digits.length = count && !(0xd800 ≤ code && code ≤ 0xdfff) && code ≤ 0x10ffff then
    some [Char.ofNat code]
  else none

/-- What follows a backslash: the text that it stands for, and how many characters it has. -/
def escaped? : List Char → Option (List Char × Nat)
  | [] => none
  | c :: rest =>
    match c with
    | '0' => some (['\x00'], 1)
    | 'a' => some (['\x07'], 1)
    | 'b' => some (['\x08'], 1)
    | 't' => some (['\t'], 1)
    | '\t' => some (['\t'], 1)
    | 'n' => some (['\n'], 1)
    | 'v' => some (['\x0b'], 1)
    | 'f' => some (['\x0c'], 1)
    | 'r' => some (['\r'], 1)
    | 'e' => some (['\x1b'], 1)
    | ' ' => some ([' '], 1)
    | '"' => some (['"'], 1)
    | '/' => some (['/'], 1)
    | '\\' => some (['\\'], 1)
    | 'N' => some ([Char.ofNat 0x85], 1)
    | '_' => some ([Char.ofNat 0xa0], 1)
    | 'L' => some ([Char.ofNat 0x2028], 1)
    | 'P' => some ([Char.ofNat 0x2029], 1)
    | 'x' => (namedChar? 2 rest).map fun text => (text, 3)
    | 'u' => (namedChar? 4 rest).map fun text => (text, 5)
    | 'U' => (namedChar? 8 rest).map fun text => (text, 9)
    | _ => none

/-- How a word within quotes ends: at the quote, at white space, or at a backslash that joins the
line with the next. -/
inductive WordEnd
  | quote
  | space
  | joined

/-- A word within quotes, with how it ends and how many characters it takes. -/
def quotedWord? (single : Bool) : Nat → List Char → Option (List Char × WordEnd × Nat)
  | 0, _ => none
  | _ + 1, [] => some ([], .space, 0)
  | fuel + 1, c :: rest =>
    let continue? (text : List Char) (size : Nat) : Option (List Char × WordEnd × Nat) :=
      (quotedWord? single fuel ((c :: rest).drop size)).map fun (more, ended, count) =>
        (text ++ more, ended, size + count)
    if isSpacing c || isBreak c then some ([], .space, 0)
    else if single then
      if c == '\'' then
        if rest.head? == some '\'' then continue? ['\''] 2 else some ([], .quote, 0)
      else continue? [c] 1
    else if c == '"' then some ([], .quote, 0)
    else if c == '\\' then
      if rest.head?.any isBreak then some ([], .joined, 0)
      else
        match escaped? rest with
        | none => none
        | some (text, size) => continue? text (size + 1)
    else continue? [c] 1

/-- Reads the words within quotes, up to the closing quote. -/
def quotedWords (single : Bool) : Nat → List Char → Reach → Option (List Char × Reach)
  | 0, _, _ => none
  | fuel + 1, done, r =>
    if r.atDocumentMark || r.rest.isEmpty then none
    else
      match quotedWord? single (r.rest.length + 1) r.rest with
      | none => none
      | some (word, ended, count) =>
        let after := r.skip count
        let fold (start : Spacing) (place : Reach) : Option (List Char × Reach) :=
          match takeSpacing 0 (place.rest.length + 1) start place with
          | none => none
          | some (spacing, next) => quotedWords single fuel (done ++ word ++ spacing.text) next
        match ended with
        | .quote => some (done ++ word, after.skip 1)
        | .space => fold {} after
        | .joined => fold { broken := true } ((after.skip 1).takeBreak).2

/-- Reads a scalar within quotes. -/
def quotedScalar? (single : Bool) (r : Reach) : Option (String × Reach) :=
  (quotedWords single (r.rest.length + 1) [] (r.skip 1)).map fun (text, next) =>
    (String.ofList text, next)

/-- What becomes of the line breaks at the end of a block. -/
inductive Chomping
  | strip
  | clip
  | keep

/-- How a block of lines is marked: its chomping, and its indentation when that is given. -/
def blockHeader? (r : Reach) : Option (Chomping × Option Nat × Reach) :=
  let chomping? (c : Char) : Option Chomping :=
    if c == '+' then some .keep else if c == '-' then some .strip else none
  let indent? (c : Char) : Option Nat := (Decimal.digit? 10 c)
  match r.rest with
  | [] => some (.clip, none, r)
  | c :: rest =>
    match chomping? c with
    | some chomping =>
      match rest.head?.bind indent? with
      | some 0 => none
      | some n => some (chomping, some n, r.skip 2)
      | none => some (chomping, none, r.skip 1)
    | none =>
      match indent? c with
      | some 0 => none
      | some n =>
        match rest.head?.bind chomping? with
        | some chomping => some (chomping, some n, r.skip 2)
        | none => some (.clip, some n, r.skip 1)
      | none => some (.clip, none, r)

/-- Passes over empty lines and the indentation of a line. While the indentation is not known,
the longest one passed counts. Answers the line breaks and the greatest column. -/
def blockBreaks (indent : Option Nat) :
    Nat → List Char → Nat → Reach → Option (List Char × Nat × Reach)
  | 0, _, _, _ => none
  | fuel + 1, breaks, widest, r =>
    let room : Nat := match indent with
      | some n => n - r.column
      | none => r.rest.length
    let margin := ((r.rest.take room).takeWhile (· == ' ')).length
    let r := r.skip margin
    let widest := max widest r.column
    let inside := match indent with
      | some n => r.column < n
      | none => true
    match r.rest with
    | [] => some (breaks, widest, r)
    | c :: _ =>
      if inside && c == '\t' then none
      else if isBreak c then
        let (ended, next) := r.takeBreak
        blockBreaks indent fuel (breaks ++ ended) widest next
      else some (breaks, widest, r)

/-- The line breaks and the text of a block so far, and what the last line began with. -/
structure BlockLines where
  text : List Char := []
  ended : List Char := []
  breaks : List Char := []
  blankLed : Bool := false

/-- Reads the lines of a block with a known indentation. -/
def blockLines (literal : Bool) (indent : Nat) :
    Nat → BlockLines → Reach → Option (BlockLines × Reach)
  | 0, _, _ => none
  | fuel + 1, lines, r =>
    if r.column != indent || r.rest.isEmpty then some (lines, r)
    else
      let blank := r.rest.head?.any isSpacing
      let folded := !literal && lines.ended.head? == some '\n' && !lines.blankLed && !blank
      let between :=
        if folded then (if lines.breaks.isEmpty then [' '] else []) else lines.ended
      let (line, atEnd) := r.takeWhile fun c => !isBreak c
      let (ended, next) := atEnd.takeBreak
      match blockBreaks (some indent) (next.rest.length + 1) [] 0 next with
      | none => none
      | some (breaks, _, next) =>
        blockLines literal indent fuel
          { text := lines.text ++ between ++ lines.breaks ++ line, ended, breaks,
            blankLed := blank } next

/-- Reads a block of lines under an indentation of `parent`, which is -1 at the top. -/
def blockScalar? (literal : Bool) (parent : Int) (r : Reach) : Option (String × Reach) := do
  let (chomping, given, r) ← blockHeader? (r.skip 1)
  let r ← r.skipComment?
  let r := r.takeBreak.2
  let start : Option Nat := given.map fun n => (max parent 0).toNat + n
  let (breaks, widest, r) ← blockBreaks start (r.rest.length + 1) [] 0 r
  let indent := start.getD (max (max widest (parent + 1).toNat) 1)
  let (lines, r) ← blockLines literal indent (r.rest.length + 1) { breaks } r
  let ending := match chomping with
    | .strip => []
    | .clip => lines.ended
    | .keep => lines.ended ++ lines.breaks
  some (String.ofList (lines.text ++ ending), r)

end Wayfinder.Yaml
