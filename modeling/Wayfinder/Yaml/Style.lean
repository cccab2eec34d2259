import Wayfinder.Tree.Plain
import Wayfinder.Yaml.Reach
import Wayfinder.Text.Quoted

/-!
How a text is written as a scalar: plain where it reads back as the same text, within quotes where
it would not, and as a block of lines where it has several.
-/

set_option autoImplicit false
set_option relaxedAutoImplicit false

namespace Wayfinder.Yaml

/-- The ways to write a scalar. -/
inductive Style
  | plain
  | single
  | double
  | literal
  deriving DecidableEq, Repr

/-- The words that some reader takes for something other than a text. -/
def reservedWords : List String :=
  ["y", "yes", "n", "no", "on", "off", "true", "false", "null", "nil", "~", "nan"]

/-- Whether some reader may take a text for something else. -/
def isAmbiguous (s : String) : Bool :=
  match s.toList with
  | [] => true
  | c :: _ =>
    let lower := String.ofList (s.toList.map Char.toLower)
    c.isDigit || c == '-' || c == '.' || c == '+' || Plain.isNull lower ||
      (Plain.bool? lower).isSome || reservedWords.contains lower

/-- Whether an unquoted text reads back as a text. -/
def readsAsText (s : String) : Bool :=
  match Plain.resolve? s with
  | some (.string _) => true
  | _ => false

/-- The style to begin with. -/
def wantedStyle (s : String) : Style :=
  if s.toList.contains '\n' then .literal
  else if !readsAsText s || isAmbiguous s then .single
  else .plain

/-- Whether a character is shown as it is between double quotes. -/
def isShown (c : Char) : Bool :=
  let n := c.toNat
  n == 0x0a || (0x20 ≤ n && n ≤ 0x7e) ||
    (0xa0 ≤ n && n != 0xfeff && n != 0xfffe && n != 0xffff)

/-- The characters that begin something other than a plain scalar. -/
def isIndicator (c : Char) : Bool := "#,[]\x7b\x7d&*!|>\x27\"%@\x60".toList.contains c

/-- Whether a text after its first character, with the character before it, holds the start of a
comment or the end of a key. -/
def hasMark : Char → List Char → Bool
  | _, [] => false
  | before, c :: rest =>
    (c == ':' && atGap rest) || (c == '#' && (isSpacing before || isBreak before)) ||
      hasMark c rest

/-- Whether a text would be read as more than a plain scalar. -/
def hasIndicators (l : List Char) : Bool :=
  ['-', '-', '-'].isPrefixOf l || ['.', '.', '.'].isPrefixOf l ||
    match l with
    | [] => false
    | c :: rest =>
      isIndicator c || ((c == '?' || c == ':' || c == '-') && atGap rest) || hasMark c rest

/-- Whether `p` and then `q` hold of two characters in a row. -/
def hasPair (p q : Char → Bool) : List Char → Bool
  | a :: b :: rest => (p a && q b) || hasPair p q (b :: rest)
  | _ => false

/-- Whether a character is a blank. -/
def isBlank (c : Char) : Bool := c == ' '

/-- Whether a text can be written plain. -/
def allowsPlain (l : List Char) : Bool :=
  l.all (fun c => isShown c && !isBreak c) && !l.head?.any isBlank && !l.getLast?.any isBlank &&
    !hasIndicators l

/-- Whether a text can be written between single quotes. -/
def allowsSingle (l : List Char) : Bool :=
  l.all isShown && !hasPair isBlank isBreak l && !hasPair isBreak isBlank l

/-- Whether a text can be written as a block of lines. -/
def allowsLiteral (l : List Char) : Bool :=
  l.all isShown && !hasPair isBlank isBreak l && !l.getLast?.any isBlank

/-- The style of a text. -/
def styleOf (s : String) : Style :=
  let l := s.toList
  let quoted := if allowsSingle l then .single else .double
  match wantedStyle s with
  | .plain => if allowsPlain l then .plain else quoted
  | .single => quoted
  | .literal => if allowsLiteral l then .literal else .double
  | .double => .double

/-- A digit of base sixteen, in upper case. -/
def upperDigit (n : Nat) : Char := if n < 10 then Char.ofNat (48 + n) else Char.ofNat (55 + n)

/-- The last `count` digits of `n` in base sixteen. -/
def upperDigits (count n : Nat) : List Char :=
  (List.range count).reverse.map fun i => upperDigit (n / Nat.pow 16 i % 16)

/-- How a character is written between double quotes. -/
def doubleChar (c : Char) : List Char :=
  if isShown c && !isBreak c && c != '"' && c != '\\' then [c]
  else
    match c with
    | '\x00' => ['\\', '0']
    | '\x07' => ['\\', 'a']
    | '\x08' => ['\\', 'b']
    | '\t' => ['\\', 't']
    | '\n' => ['\\', 'n']
    | '\x0b' => ['\\', 'v']
    | '\x0c' => ['\\', 'f']
    | '\r' => ['\\', 'r']
    | '\x1b' => ['\\', 'e']
    | '"' => ['\\', '"']
    | '\\' => ['\\', '\\']
    | c =>
      let n := c.toNat
      if n == 0x85 then ['\\', 'N']
      else if n == 0x2028 then ['\\', 'L']
      else if n == 0x2029 then ['\\', 'P']
      else if n ≤ 0xff then ['\\', 'x'] ++ upperDigits 2 n
      else if n ≤ 0xffff then ['\\', 'u'] ++ upperDigits 4 n
      else ['\\', 'U'] ++ upperDigits 8 n

/-- The text between single quotes: a quote is written twice, and a line that begins after a break
is indented. -/
def singleBody (indent : Nat) : List Char → List Char
  | [] => []
  | c :: rest =>
    if isBreak c then
      if rest.head?.any isBreak then c :: singleBody indent rest
      else c :: (List.replicate indent ' ' ++ singleBody indent rest)
    else if c = '\'' then '\'' :: '\'' :: singleBody indent rest
    else c :: singleBody indent rest

/-- The lines of a block, each one that is not empty indented. -/
def literalBody (indent : Nat) : Bool → List Char → List Char
  | _, [] => []
  | atStart, c :: rest =>
    if isBreak c then c :: literalBody indent true rest
    else if atStart then List.replicate indent ' ' ++ c :: literalBody indent false rest
    else c :: literalBody indent false rest

/-- The marks of a block: the indentation when the block begins with white space, and what becomes
of the breaks at its end. -/
def literalHints (l : List Char) : List Char :=
  let indent := if l.head?.any (fun c => c == ' ' || isBreak c) then ['2'] else []
  let chomping := match l.reverse with
    | [] => ['-']
    | last :: before =>
      if !isBreak last then ['-']
      else
        match before with
        | [] => ['+']
        | c :: _ => if isBreak c then ['+'] else []
  indent ++ chomping

/-- A text as a scalar; its further lines are indented. -/
def scalarText (indent : Nat) (s : String) : String :=
  let l := s.toList
  match styleOf s with
  | .plain => s
  | .single => String.ofList ('\'' :: (singleBody indent l ++ ['\'']))
  | .double => String.ofList ('"' :: (l.flatMap doubleChar ++ ['"']))
  | .literal => String.ofList ('|' :: (literalHints l ++ '\n' :: literalBody indent true l))

end Wayfinder.Yaml
