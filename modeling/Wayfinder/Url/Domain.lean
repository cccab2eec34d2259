import Wayfinder.Url.Punycode
import Wayfinder.Text.Pieces
import Wayfinder.Text.Printable

/-!
Names of hosts in the one spelling that is looked up: in lower case, and labels beyond ASCII spelled
in ASCII.

What characters stand for is followed as far as letters of Latin, Greek, Cyrillic and Armenian go,
full-width forms, full stops, and what is passed over. Other letters stay as they are, and so do
other forms of letters, such as ligatures. Nothing is composed: letters are taken to come with their
marks, and a mark of its own is refused, but for the dot above the `i` that the capital with a dot
(U+0130) stands for.
-/

set_option autoImplicit false
set_option relaxedAutoImplicit false

namespace Wayfinder.Url.Domain

/-- The dot above a letter, as a character of its own. -/
def dotAbove : Char := Char.ofNat 0x307

/-- The number of the small letter for a letter beyond ASCII that has one. -/
def smallCode (n : Nat) : Nat :=
  if (0xc0 ≤ n && n ≤ 0xde && n != 0xd7) then n + 32
  else if (0x100 ≤ n && n ≤ 0x137) || (0x14a ≤ n && n ≤ 0x177) || (0x460 ≤ n && n ≤ 0x481) ||
      (0x48a ≤ n && n ≤ 0x4bf) || (0x4d0 ≤ n && n ≤ 0x52f) || (0x1e00 ≤ n && n ≤ 0x1e95) ||
      (0x1ea0 ≤ n && n ≤ 0x1eff) then
    if n % 2 = 0 then n + 1 else n
  else if (0x139 ≤ n && n ≤ 0x148) || (0x179 ≤ n && n ≤ 0x17e) then
    if n % 2 = 1 then n + 1 else n
  else if n = 0x178 then 0xff
  else if n = 0x386 then 0x3ac
  else if 0x388 ≤ n && n ≤ 0x38a then n + 37
  else if n = 0x38c then 0x3cc
  else if n = 0x38e || n = 0x38f then n + 63
  else if 0x391 ≤ n && n ≤ 0x3ab then n + 32
  else if 0x400 ≤ n && n ≤ 0x40f then n + 80
  else if 0x410 ≤ n && n ≤ 0x42f then n + 32
  else if 0x531 ≤ n && n ≤ 0x556 then n + 48
  else n

/-- Whether a character is passed over. -/
def isIgnored (n : Nat) : Bool :=
  n == 0xad || n == 0x34f || (0x180b ≤ n && n ≤ 0x180f) || n == 0x200b || n == 0x2060 ||
    (0xfe00 ≤ n && n ≤ 0xfe0f) || n == 0xfeff || (0xe0100 ≤ n && n ≤ 0xe01ef)

/-- What a character stands for: letters in lower case and in common width, and each kind of full
stop for the common one. -/
def foldChar (c : Char) : List Char :=
  let n := c.toNat
  if n < 128 then [c.toLower]
  else if isIgnored n then []
  else if n = 0x3002 || n = 0xff61 then ['.']
  else if 0xff01 ≤ n && n ≤ 0xff5e then [(Char.ofNat (n - 0xfee0)).toLower]
  else if n = 0x130 then ['i', dotAbove]
  else if n = 0x17f then ['s']
  else if n = 0x1e9e then [Char.ofNat 0xdf]
  else [Char.ofNat (smallCode n)]

/-- Whether a character of ASCII has no place in a name. -/
def isForbidden (c : Char) : Bool :=
  c.toNat ≤ 0x20 || c.toNat == 0x7f || "%#/:<>?@[\\]^|".toList.contains c

/-- Whether a character may stand in a label. -/
def isLetter (c : Char) : Bool :=
  if c.toNat < 128 then !isForbidden c else Text.isPrintable c || c == dotAbove

/-- Whether a dot above stands in a label only behind an `i`. -/
def dotsFit (l : List Char) : Bool :=
  (l.zip ('.' :: l)).all fun (c, before) => c != dotAbove || before == 'i'

/-- Whether all characters of a label are in ASCII. -/
def isAscii (l : List Char) : Bool := l.all (fun c => c.toNat < 128)

/-- A label in the spelling that is looked up; none for one that can not be. A label that is
already spelled in ASCII has to be the spelling of some other label. -/
def label? (l : List Char) : Option (List Char) :=
  let mark := ['x', 'n', '-', '-']
  if mark.isPrefixOf l then
    match Punycode.decode (l.drop 4) with
    | none => none
    | some decoded =>
      if isAscii decoded || !decoded.all isLetter || !dotsFit decoded ||
          decoded.flatMap foldChar != decoded || mark ++ Punycode.encode decoded != l then none
      else some l
  else if !l.all isLetter || !dotsFit l then none
  else if isAscii l then some l
  else some (mark ++ Punycode.encode l)

/-- A name in the spelling that is looked up. -/
def lookedUp? (l : List Char) : Option (List Char) :=
  ((Text.pieces '.' (l.flatMap foldChar)).mapM label?).map (Text.join '.')

end Wayfinder.Url.Domain
