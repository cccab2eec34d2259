import Wayfinder.Text.Utf8

/-!
Texts in which a backslash and a letter, or digits of base eight, stand for an octet.
-/

set_option autoImplicit false
set_option relaxedAutoImplicit false

namespace Wayfinder.Shell

/-- The octets of a character. -/
def octetsOf (c : Char) : List UInt8 := String.utf8EncodeChar c

/-- The octets of a text. -/
def octetsOfText (s : String) : List UInt8 := (Text.encode s).toList

/-- The octet that a letter behind a backslash stands for. -/
def letterOctet? : Char → Option UInt8
  | 'a' => some 7
  | 'b' => some 8
  | 't' => some 9
  | 'n' => some 10
  | 'v' => some 11
  | 'f' => some 12
  | 'r' => some 13
  | '\\' => some 0x5c
  | _ => none

/-- The value of a digit of base eight. -/
def octalDigit? (c : Char) : Option Nat :=
  if '0' ≤ c && c ≤ '7' then some (c.toNat - 48) else none

/-- The number that up to `count` digits of base eight spell, and what follows them. -/
def octal (count value : Nat) : List Char → Nat × List Char
  | [] => (value, [])
  | c :: rest =>
    match count, octalDigit? c with
    | count + 1, some d => octal count (value * 8 + d) rest
    | _, _ => (value, c :: rest)

/-- What follows a backslash, where digits stand for an octet at once, or behind a zero. -/
def escaped (behindZero : Bool) : List Char → List UInt8 × List Char
  | [] => ([0x5c], [])
  | c :: rest =>
    match letterOctet? c with
    | some b => ([b], rest)
    | none =>
      if behindZero then
        if c = '0' then
          let (n, rest) := octal 3 0 rest
          ([n.toUInt8], rest)
        else (0x5c :: octetsOf c, rest)
      else if (octalDigit? c).isSome then
        let (n, rest) := octal 3 0 (c :: rest)
        ([n.toUInt8], rest)
      else (0x5c :: octetsOf c, rest)

/-- The octets of a text with its escapes, and whether an escape that ends everything is there. -/
def unescape (behindZero : Bool) : Nat → List Char → List UInt8 × Bool
  | 0, _ => ([], false)
  | _ + 1, [] => ([], false)
  | _ + 1, '\\' :: 'c' :: _ => ([], true)
  | fuel + 1, '\\' :: rest =>
    let (bytes, rest) := escaped behindZero rest
    let (more, ends) := unescape behindZero fuel rest
    (bytes ++ more, ends)
  | fuel + 1, c :: rest =>
    let (more, ends) := unescape behindZero fuel rest
    (octetsOf c ++ more, ends)

end Wayfinder.Shell
