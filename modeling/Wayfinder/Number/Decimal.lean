import Wayfinder.Number.Binary64

/-!
Numbers in written form: digits of a base, and decimal numbers with a fraction and an exponent.
-/

set_option autoImplicit false
set_option relaxedAutoImplicit false

namespace Wayfinder.Decimal

/-- The value of a digit of a base up to sixteen, in either case. -/
def digit? (base : Nat) (c : Char) : Option Nat :=
  let value? :=
    if '0' ≤ c && c ≤ '9' then some (c.toNat - 48)
    else if 'a' ≤ c && c ≤ 'f' then some (c.toNat - 87)
    else if 'A' ≤ c && c ≤ 'F' then some (c.toNat - 55)
    else none
  value?.filter (· < base)

/-- The number that digits spell after `start`. -/
def natFrom? (base start : Nat) : List Char → Option Nat
  | [] => some start
  | c :: rest => do
    let d ← digit? base c
    natFrom? base (start * base + d) rest

/-- The number that one digit or more of a base spell. -/
def nat? (base : Nat) (l : List Char) : Option Nat :=
  if l.isEmpty then none else natFrom? base 0 l

/-- Whether a character is a decimal digit. -/
def isDigit (c : Char) : Bool := (digit? 10 c).isSome

/-- The finite number that a decimal text spells: an optional sign, digits with at most one point
among or around them, and an optional exponent. -/
def float? (l : List Char) : Option Binary64 :=
  let (negative, l) := match l with
    | '-' :: rest => (true, rest)
    | '+' :: rest => (false, rest)
    | rest => (false, rest)
  let whole := l.takeWhile isDigit
  let l := l.dropWhile isDigit
  let (fraction, l) := match l with
    | '.' :: rest => (rest.takeWhile isDigit, rest.dropWhile isDigit)
    | rest => ([], rest)
  let exponent? : Option Int := match l with
    | [] => some 0
    | c :: rest =>
      if c == 'e' || c == 'E' then
        match rest with
        | '-' :: rest => (nat? 10 rest).map fun n => -(n : Int)
        | '+' :: rest => (nat? 10 rest).map fun n => (n : Int)
        | rest => (nat? 10 rest).map fun n => (n : Int)
      else none
  let digits := whole ++ fraction
  if digits.isEmpty then none
  else do
    let exponent ← exponent?
    let value ← nat? 10 digits
    let x := Binary64.ofDecimal negative value (exponent - fraction.length)
    if x.isInfinite then none else some x

end Wayfinder.Decimal
