import Wayfinder.Text.Pieces
import Wayfinder.Text.Quoted
import Wayfinder.Number.Decimal

/-!
Hosts given by number: four octets, or eight pieces of sixteen bits.
-/

set_option autoImplicit false
set_option relaxedAutoImplicit false

namespace Wayfinder.Url

namespace Octets

/-- A part of an address of octets, in base ten, or after its mark in base eight or sixteen. -/
def part? (l : List Char) : Option Nat :=
  match l with
  | [] => none
  | '0' :: 'x' :: rest => if rest.isEmpty then some 0 else Decimal.nat? 16 rest
  | '0' :: 'X' :: rest => if rest.isEmpty then some 0 else Decimal.nat? 16 rest
  | '0' :: c :: rest => Decimal.nat? 8 (c :: rest)
  | l => Decimal.nat? 10 l

/-- The parts of a name; a full stop at its end adds none. -/
def parts (l : List Char) : List (List Char) :=
  let parts := Text.pieces '.' l
  match parts.reverse with
  | [] :: before@(_ :: _) => before.reverse
  | _ => parts

/-- Whether the last part of a name is a number, so that the name has to be an address. -/
def endsInNumber (l : List Char) : Bool :=
  match (parts l).getLast? with
  | none => false
  | some last => (!last.isEmpty && last.all Decimal.isDigit) || (part? last).isSome

/-- The address that up to four parts spell; the last part fills the octets that are left. -/
def parse? (l : List Char) : Option Nat := do
  let numbers ← (parts l).mapM part?
  let last ← numbers.getLast?
  let leading := numbers.dropLast
  if 3 < leading.length || leading.any (255 < ·) ||
      Nat.pow 2 (8 * (4 - leading.length)) ≤ last then none
  else
    some (leading.zipIdx.foldl (fun sum (n, i) => sum + n * Nat.pow 2 (8 * (3 - i))) last)

/-- The four octets with points between them. -/
def text (n : Nat) : String :=
  ".".intercalate ([3, 2, 1, 0].map fun i => toString (n / Nat.pow 2 (8 * i) % 256))

end Octets

namespace Pieces

/-- A piece: one to four digits of base sixteen. -/
def piece? (l : List Char) : Option Nat :=
  if 4 < l.length then none else Decimal.nat? 16 l

/-- An octet in base ten without needless zeros. -/
def octet? (l : List Char) : Option Nat :=
  if 1 < l.length && l.head? == some '0' then none
  else if 3 < l.length then none
  else (Decimal.nat? 10 l).filter (· ≤ 255)

/-- The two pieces that four octets at the end stand for. -/
def octets? (l : List Char) : Option (List Nat) :=
  match (Text.pieces '.' l).mapM octet? with
  | some [a, b, c, d] => some [a * 256 + b, c * 256 + d]
  | _ => none

/-- The pieces between colons; the last may be four octets. -/
def run? (last : Bool) : List (List Char) → Option (List Nat)
  | [] => some []
  | [l] => if last && l.contains '.' then octets? l else (piece? l).map fun n => [n]
  | l :: rest => do
    let n ← piece? l
    let more ← run? last rest
    some (n :: more)

/-- The pieces of a text without a gap; an empty text has none. -/
def side? (last : Bool) (l : List Char) : Option (List Nat) :=
  if l.isEmpty then some [] else run? last (Text.pieces ':' l)

/-- A text before and after its first two colons in a row. -/
def cut : List Char → Option (List Char × List Char)
  | ':' :: ':' :: rest => some ([], rest)
  | c :: rest => (cut rest).map fun (before, after) => (c :: before, after)
  | [] => none

/-- The eight pieces of an address. Two colons in a row stand for as many zeros as are missing. -/
def parse? (l : List Char) : Option (List Nat) :=
  match cut l with
  | none => do
    let pieces ← side? true l
    if pieces.length = 8 then some pieces else none
  | some (before, after) => do
    let before ← side? false before
    let after ← side? true after
    let missing := 8 - before.length - after.length
    if missing = 0 then none
    else some (before ++ List.replicate missing 0 ++ after)

/-- The place and length of the first longest run of zeros, from position `i` on. -/
def longestZeros : Nat → List Nat → Nat × Nat
  | _, [] => (0, 0)
  | i, n :: rest =>
    let here := ((n :: rest).takeWhile (· == 0)).length
    let (place, length) := longestZeros (i + 1) rest
    if here ≠ 0 && length ≤ here then (i, here) else (place, length)

/-- Pieces with colons between them. -/
def joined (pieces : List Nat) : String :=
  ":".intercalate (pieces.map fun n => String.ofList (Text.hexDigits n))

/-- The address, its first longest run of two zeros or more left out. -/
def text (pieces : List Nat) : String :=
  let (place, length) := longestZeros 0 pieces
  if length < 2 then joined pieces
  else joined (pieces.take place) ++ "::" ++ joined (pieces.drop (place + length))

end Pieces

end Wayfinder.Url
