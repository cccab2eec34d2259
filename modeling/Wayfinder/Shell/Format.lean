import Wayfinder.Shell.Escape

/-!
Formats: texts in which a percent sign begins a directive that takes an argument.
-/

set_option autoImplicit false
set_option relaxedAutoImplicit false

namespace Wayfinder.Shell

/-- A directive: how an argument is written. -/
structure Directive where
  flags : List Char := []
  width : Nat := 0
  precision : Option Nat := none
  letter : Char
  deriving DecidableEq, Repr

namespace Directive

/-- The number at the start of a text; none is zero. -/
def count (l : List Char) : Nat × List Char :=
  (((String.ofList (l.takeWhile Char.isDigit)).toNat?).getD 0, l.dropWhile Char.isDigit)

/-- The directive behind a percent sign, and what follows it. -/
def read? (l : List Char) : Option (Directive × List Char) :=
  let isFlag (c : Char) : Bool := "-+ 0#".toList.contains c
  let flags := l.takeWhile isFlag
  let (width, rest) := count (l.dropWhile isFlag)
  let (precision, rest) := match rest with
    | '.' :: rest => let (n, rest) := count rest; (some n, rest)
    | rest => (none, rest)
  match rest with
  | [] => none
  | letter :: rest => some ({ flags, width, precision, letter }, rest)

/-- Fills octets up to the width. -/
def fill (d : Directive) (bytes : List UInt8) : List UInt8 :=
  let missing := List.replicate (d.width - bytes.length) (0x20 : UInt8)
  if d.flags.contains '-' then bytes ++ missing else missing ++ bytes

/-- The digits of a number for a letter. -/
def digits (letter : Char) (n : Nat) : List Char :=
  if letter = 'x' then Nat.toDigits 16 n
  else if letter = 'X' then (Nat.toDigits 16 n).map Char.toUpper
  else if letter = 'o' then Nat.toDigits 8 n
  else Nat.toDigits 10 n

/-- Writes a number. -/
def number (d : Directive) (n : Int) : List UInt8 :=
  let isSigned := d.letter == 'd' || d.letter == 'i'
  let magnitude := if isSigned then n.natAbs else (n % Nat.pow 2 64).toNat
  let sign : List Char :=
    if isSigned && n < 0 then ['-']
    else if isSigned && d.flags.contains '+' then ['+']
    else if isSigned && d.flags.contains ' ' then [' ']
    else []
  let shown := digits d.letter magnitude
  let least := match d.precision with
    | some p => p
    | none =>
      if d.flags.contains '0' && !d.flags.contains '-' then d.width - sign.length else 0
  let zeros := List.replicate (least - shown.length) '0'
  d.fill (octetsOfText (String.ofList (sign ++ zeros ++ shown)))

/-- Writes a text, cut to the precision. -/
def text (d : Directive) (bytes : List UInt8) : List UInt8 :=
  d.fill (match d.precision with
    | none => bytes
    | some p => bytes.take p)

end Directive

/-- The value of digits in a base, and what follows them. -/
def digitsIn (base value : Nat) : List Char → Nat × List Char
  | [] => (value, [])
  | c :: rest =>
    let d :=
      if c.isDigit then c.toNat - 48
      else if 'a' ≤ c && c ≤ 'f' then c.toNat - 87
      else if 'A' ≤ c && c ≤ 'F' then c.toNat - 55
      else 16
    if d < base then digitsIn base (value * base + d) rest else (value, c :: rest)

/-- The number that an argument spells, and what is wrong with it. -/
def numberOf (arg : String) : Int × Option String :=
  let (isNegative, l) := match arg.toList with
    | '-' :: rest => (true, rest)
    | '+' :: rest => (false, rest)
    | l => (false, l)
  let signed (n : Nat) : Int := if isNegative then -n else n
  match arg.toList with
  | [] => (0, none)
  | '\'' :: c :: _ => (c.toNat, none)
  | '"' :: c :: _ => (c.toNat, none)
  | _ =>
    let (n, rest) := match l with
      | '0' :: 'x' :: rest => digitsIn 16 0 rest
      | '0' :: rest => digitsIn 8 0 ('0' :: rest)
      | l => digitsIn 10 0 l
    if rest.length = l.length then (0, some (arg ++ ": expected numeric value"))
    else if rest.isEmpty then (signed n, none)
    else (signed n, some (arg ++ ": not completely converted"))

/-- What writing a format comes to. -/
structure Written where
  bytes : List UInt8 := []
  complaints : List String := []
  status : Nat := 0
  /-- The arguments that are left. -/
  args : List String := []
  /-- Whether nothing more is to be written. -/
  ends : Bool := false

namespace Written

/-- Adds octets in front. -/
def before (bytes : List UInt8) (w : Written) : Written := { w with bytes := bytes ++ w.bytes }

/-- Adds a complaint in front. -/
def complaining (complaint : Option String) (w : Written) : Written :=
  match complaint with
  | none => w
  | some c => { w with complaints := c :: w.complaints, status := max 1 w.status }

end Written

namespace Format

/-- Writes a format once. Arguments that are missing are empty. -/
def once : Nat → List Char → List String → Written
  | 0, _, args => { args }
  | _ + 1, [], args => { args }
  | fuel + 1, c :: rest, args =>
    let arg := args.head?.getD ""
    match c, rest with
    | '\\', rest => let (bytes, rest) := escaped false rest; (once fuel rest args).before bytes
    | '%', '%' :: rest => (once fuel rest args).before [0x25]
    | '%', rest =>
      match Directive.read? rest with
      | none => { args, ends := true, status := 2, complaints := ["%: invalid directive"] }
      | some (d, after) =>
        if d.letter = 's' then (once fuel after args.tail).before (d.text (octetsOfText arg))
        else if d.letter = 'c' then
          (once fuel after args.tail).before (d.fill ((octetsOfText arg).take 1))
        else if d.letter = 'b' then
          let (bytes, ends) := unescape true (arg.toList.length + 1) arg.toList
          if ends then { bytes, ends } else (once fuel after args.tail).before (d.text bytes)
        else if "diuxXo".toList.contains d.letter then
          let (n, complaint) := numberOf arg
          ((once fuel after args.tail).before (d.number n)).complaining complaint
        else
          let shown := rest.take (rest.length - after.length)
          { args, ends := true, status := 2
            complaints := ["%" ++ String.ofList shown ++ ": invalid directive"] }
    | c, rest => (once fuel rest args).before (octetsOf c)

/-- Writes a format as often as there are arguments for it. -/
def write (text : List Char) : Nat → List String → Written
  | 0, args => { args }
  | rounds + 1, args =>
    let w := once (text.length + 1) text args
    if w.ends || w.args.isEmpty || w.args.length = args.length then w
    else
      let more := write text rounds w.args
      { more with
        bytes := w.bytes ++ more.bytes
        complaints := w.complaints ++ more.complaints
        status := max w.status more.status }

end Format

end Wayfinder.Shell
