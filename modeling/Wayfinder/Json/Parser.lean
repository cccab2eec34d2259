import Wayfinder.Json.Basic

/-!
Reading JSON. A text is one value with white space around it; nesting deeper than 127 levels is
refused, and so is a number too large for the binary format.
-/

set_option autoImplicit false
set_option relaxedAutoImplicit false

namespace Wayfinder.Json

/-- White space between the parts of a text. -/
def isGap (c : Char) : Bool := c == ' ' || c == '\n' || c == '\t' || c == '\r'

/-- The text without the white space at its start. -/
def skipGap (l : List Char) : List Char := l.dropWhile isGap

/-- The value of a decimal digit. -/
def digit? (c : Char) : Option Nat :=
  if '0' ≤ c && c ≤ '9' then some (c.toNat - 48) else none

/-- The value of a digit of base sixteen in either case. -/
def hexValue? (c : Char) : Option Nat :=
  if '0' ≤ c && c ≤ '9' then some (c.toNat - 48)
  else if 'a' ≤ c && c ≤ 'f' then some (c.toNat - 87)
  else if 'A' ≤ c && c ≤ 'F' then some (c.toNat - 55)
  else none

/-- The value of four digits of base sixteen at the start of a text. -/
def hex4? : List Char → Option (Nat × List Char)
  | a :: b :: c :: d :: rest => do
    let a ← hexValue? a
    let b ← hexValue? b
    let c ← hexValue? c
    let d ← hexValue? d
    some (((a * 16 + b) * 16 + c) * 16 + d, rest)
  | _ => none

/-- The character of an escape sequence after its backslash. Two escapes that are surrogates of
each other spell one character; a lone surrogate spells none. -/
def escape? : List Char → Option (Char × List Char)
  | '"' :: rest => some ('"', rest)
  | '\\' :: rest => some ('\\', rest)
  | '/' :: rest => some ('/', rest)
  | 'b' :: rest => some ('\x08', rest)
  | 'f' :: rest => some ('\x0c', rest)
  | 'n' :: rest => some ('\n', rest)
  | 'r' :: rest => some ('\r', rest)
  | 't' :: rest => some ('\t', rest)
  | 'u' :: rest => do
    let (code, rest) ← hex4? rest
    if 0xdc00 ≤ code && code ≤ 0xdfff then none
    else if 0xd800 ≤ code && code ≤ 0xdbff then
      match rest with
      | '\\' :: 'u' :: rest => do
        let (low, rest) ← hex4? rest
        if 0xdc00 ≤ low && low ≤ 0xdfff then
          some (Char.ofNat (0x10000 + (code - 0xd800) * 0x400 + (low - 0xdc00)), rest)
        else none
      | _ => none
    else some (Char.ofNat code, rest)
  | _ => none

/-- The characters of a string after its opening quote, and what follows its closing quote. -/
def stringBody : Nat → List Char → Option (List Char × List Char)
  | 0, _ => none
  | _ + 1, [] => none
  | _ + 1, '"' :: rest => some ([], rest)
  | fuel + 1, '\\' :: rest => do
    let (c, rest) ← escape? rest
    let (more, rest) ← stringBody fuel rest
    some (c :: more, rest)
  | fuel + 1, c :: rest =>
    if c.toNat < 0x20 then none
    else do
      let (more, rest) ← stringBody fuel rest
      some (c :: more, rest)

/-- The number `digits * 10 ^ exponent`, reached from the nearest number to `digits` by one
rounded product or quotient; none when it is too large. -/
def floatOf (negative : Bool) (digits : Nat) (exponent : Int) : Option Binary64 :=
  let start := Binary64.ofNat digits
  let signed (x : Binary64) : Binary64 := if negative then x.negate else x
  let tenTo (n : Nat) : Binary64 := Binary64.ofNat (Nat.pow 10 n)
  if digits = 0 then some (signed start)
  else if 0 ≤ exponent then
    if 308 < exponent then none
    else
      let x := start.mul (tenTo exponent.toNat)
      if x.isInfinite then none else some (signed x)
  else
    let rec shrink (x : Binary64) (n : Nat) : Nat → Binary64
      | 0 => x
      | fuel + 1 =>
        if n ≤ 308 then x.div (tenTo n)
        else if x.isZero then x
        else shrink (x.div (tenTo 308)) (n - 308) fuel
    some (signed (shrink start (-exponent).toNat 4))

/-- The longest run of decimal digits that keeps the number read so far below `2 ^ 64`, with how
many digits it took. -/
def takeDigits (value count : Nat) : List Char → Nat × Nat × List Char
  | [] => (value, count, [])
  | c :: rest =>
    match digit? c with
    | none => (value, count, c :: rest)
    | some d =>
      if value * 10 + d < Nat.pow 2 64 then takeDigits (value * 10 + d) (count + 1) rest
      else (value, count, c :: rest)

/-- Whether a character is a decimal digit. -/
def isDigit (c : Char) : Bool := (digit? c).isSome

/-- The exponent of a number, after its letter. A number whose exponent does not fit 32 bits is
zero or too large. -/
def exponentPart (negative : Bool) (digits : Nat) (start : Int) (l : List Char) :
    Option (Json × List Char) :=
  let (down, l) := match l with
    | '+' :: rest => (false, rest)
    | '-' :: rest => (true, rest)
    | rest => (false, rest)
  let shown := l.takeWhile isDigit
  let rest := l.dropWhile isDigit
  if shown.isEmpty then none
  else
    let size : Nat := shown.foldl (fun n c => n * 10 + (c.toNat - 48)) 0
    if Nat.pow 2 31 ≤ size then
      if digits ≠ 0 && !down then none
      else some (.float (Binary64.zero negative), rest)
    else do
      let x ← floatOf negative digits (if down then start - (size : Int) else start + (size : Int))
      some (.float x, rest)

/-- What follows the digits of a number with a fraction. -/
def afterDigits (negative : Bool) (digits : Nat) (exponent : Int) (l : List Char) :
    Option (Json × List Char) :=
  match l with
  | 'e' :: rest => exponentPart negative digits exponent rest
  | 'E' :: rest => exponentPart negative digits exponent rest
  | rest => do
    let x ← floatOf negative digits exponent
    some (.float x, rest)

/-- The fraction of a number, after its point. Digits past the 64-bit range are passed over. -/
def fractionPart (negative : Bool) (digits : Nat) (before : Nat) (l : List Char) :
    Option (Json × List Char) :=
  match l with
  | [] => none
  | c :: _ =>
    if isDigit c then
      let (value, count, rest) := takeDigits digits 0 l
      afterDigits negative value ((before : Int) - count) (rest.dropWhile isDigit)
    else none

/-- A number after its sign. -/
def numberBody (negative : Bool) (l : List Char) : Option (Json × List Char) :=
  let whole (n : Nat) : Json :=
    if negative then
      if n = 0 || Nat.pow 2 63 < n then .float (Binary64.ofNat n).negate else .int (-(n : Int))
    else .int n
  let finish (n extra : Nat) (rest : List Char) : Option (Json × List Char) :=
    match rest with
    | '.' :: rest => fractionPart negative n extra rest
    | 'e' :: rest => exponentPart negative n extra rest
    | 'E' :: rest => exponentPart negative n extra rest
    | rest =>
      if extra = 0 then some (whole n, rest)
      else do
        let x ← floatOf negative n extra
        some (.float x, rest)
  match l with
  | [] => none
  | '0' :: rest =>
    match rest with
    | c :: _ => if isDigit c then none else finish 0 0 rest
    | [] => finish 0 0 []
  | c :: _ =>
    if isDigit c then
      let (value, _, rest) := takeDigits 0 0 l
      finish value (rest.takeWhile isDigit).length (rest.dropWhile isDigit)
    else none

/-- The text after a word, if it starts with the word. -/
def word? (w : List Char) (l : List Char) : Option (List Char) :=
  if w.isPrefixOf l then some (l.drop w.length) else none

section

variable (build : List (String × Json) → Json)

mutual

/-- One value at the start of a text, with `depth` levels of nesting left; `build` makes an object
of the members that are written. -/
def valueAt : Nat → Nat → List Char → Option (Json × List Char)
  | 0, _, _ => none
  | fuel + 1, depth, l =>
    match skipGap l with
    | [] => none
    | 'n' :: rest => (word? ['u', 'l', 'l'] rest).map fun rest => (.null, rest)
    | 't' :: rest => (word? ['r', 'u', 'e'] rest).map fun rest => (.bool true, rest)
    | 'f' :: rest => (word? ['a', 'l', 's', 'e'] rest).map fun rest => (.bool false, rest)
    | '"' :: rest =>
      (stringBody (rest.length + 1) rest).map fun r => (.string (String.ofList r.1), r.2)
    | '-' :: rest => numberBody true rest
    | '[' :: rest =>
      match depth with
      | 0 => none
      | depth + 1 =>
        match skipGap rest with
        | ']' :: rest => some (.array [], rest)
        | rest => do
          let (items, rest) ← itemsAt fuel depth rest
          some (.array items, rest)
    | '\x7b' :: rest =>
      match depth with
      | 0 => none
      | depth + 1 =>
        match skipGap rest with
        | '\x7d' :: rest => some (build [], rest)
        | rest => do
          let (members, rest) ← membersAt fuel depth rest
          some (build members, rest)
    | c :: rest => if isDigit c then numberBody false (c :: rest) else none

/-- The items of an array up to and with its closing bracket. -/
def itemsAt : Nat → Nat → List Char → Option (List Json × List Char)
  | 0, _, _ => none
  | fuel + 1, depth, l => do
    let (item, rest) ← valueAt fuel depth l
    match skipGap rest with
    | ']' :: rest => some ([item], rest)
    | ',' :: rest => do
      let (more, rest) ← itemsAt fuel depth rest
      some (item :: more, rest)
    | _ => none

/-- The members of an object up to and with its closing bracket. -/
def membersAt : Nat → Nat → List Char → Option (List (String × Json) × List Char)
  | 0, _, _ => none
  | fuel + 1, depth, l =>
    match skipGap l with
    | '"' :: rest => do
      let (name, rest) ← stringBody (rest.length + 1) rest
      match skipGap rest with
      | ':' :: rest => do
        let (value, rest) ← valueAt fuel depth rest
        match skipGap rest with
        | '\x7d' :: rest => some ([(String.ofList name, value)], rest)
        | ',' :: rest => do
          let (more, rest) ← membersAt fuel depth rest
          some ((String.ofList name, value) :: more, rest)
        | _ => none
      | _ => none
    | _ => none

end

/-- The value that a whole text spells. -/
def readWith (s : String) : Option Json :=
  let l := s.toList
  match valueAt build (2 * l.length + 2) 127 l with
  | some (value, rest) => if (skipGap rest).isEmpty then some value else none
  | none => none

end

/-- The value that a text spells; of members of one name the last one counts. -/
def parse? (s : String) : Option Json := readWith ofMembers s

/-- The value that a text spells, with all members in the order in which they are written. -/
def written? (s : String) : Option Json := readWith .object s

end Wayfinder.Json
