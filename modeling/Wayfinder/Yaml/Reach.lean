/-!
A place in a text that is read line by line: what is left of it, and how far the reader has come.
-/

set_option autoImplicit false
set_option relaxedAutoImplicit false

namespace Wayfinder.Yaml

/-- Whether a character ends a line. -/
def isBreak (c : Char) : Bool :=
  c == '\n' || c == '\r' || c == Char.ofNat 0x85 || c == Char.ofNat 0x2028 ||
    c == Char.ofNat 0x2029

/-- Whether a character separates words within a line. -/
def isSpacing (c : Char) : Bool := c == ' ' || c == '\t'

/-- Whether a text stands at its end or at the end of a line. -/
def atBreak : List Char → Bool
  | [] => true
  | c :: _ => isBreak c

/-- Whether a text stands at its end, at the end of a line or between words. -/
def atGap : List Char → Bool
  | [] => true
  | c :: _ => isBreak c || isSpacing c

/-- A place in a text. -/
structure Reach where
  rest : List Char
  index : Nat := 0
  line : Nat := 0
  column : Nat := 0
  deriving Repr

namespace Reach

/-- The place `n` characters on in the line. -/
def skip (n : Nat) (r : Reach) : Reach :=
  { r with rest := r.rest.drop n, index := r.index + n, column := r.column + n }

/-- The place after the end of a line, and the character that the end of the line stands for. -/
def takeBreak (r : Reach) : List Char × Reach :=
  let next (n : Nat) : Reach :=
    { rest := r.rest.drop n, index := r.index + n, line := r.line + 1, column := 0 }
  match r.rest with
  | '\r' :: '\n' :: _ => (['\n'], next 2)
  | c :: _ =>
    if isBreak c then
      (if c == Char.ofNat 0x2028 || c == Char.ofNat 0x2029 then [c] else ['\n'], next 1)
    else ([], r)
  | [] => ([], r)

/-- The characters at the place that `p` holds of, and the place after them. -/
def takeWhile (p : Char → Bool) (r : Reach) : List Char × Reach :=
  let taken := r.rest.takeWhile p
  (taken, r.skip taken.length)

/-- The place after the characters that `p` holds of. -/
def skipWhile (p : Char → Bool) (r : Reach) : Reach := (r.takeWhile p).2

/-- Whether the text at the place is one of the two marks between documents. -/
def atDocumentMark (r : Reach) : Bool :=
  r.column == 0 &&
    match r.rest with
    | '-' :: '-' :: '-' :: rest => atGap rest
    | '.' :: '.' :: '.' :: rest => atGap rest
    | _ => false

/-- The place at the end of the line, when only spacing and a comment are left of the line. -/
def skipComment? (r : Reach) : Option Reach :=
  let r := r.skipWhile isSpacing
  let r := match r.rest with
    | '#' :: _ => r.skipWhile fun c => !isBreak c
    | _ => r
  if atBreak r.rest then some r else none

end Reach

end Wayfinder.Yaml
