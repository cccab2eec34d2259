/-!
Binary floating-point numbers of 64 bits, as their bits: rounding a quotient of natural numbers to
the nearest one, and the fewest decimal digits that lead back to one.
-/

set_option autoImplicit false
set_option relaxedAutoImplicit false

namespace Wayfinder

/-- A number in the 64-bit binary format, given by its bits. -/
structure Binary64 where
  bits : UInt64
  deriving DecidableEq, Repr

namespace Binary64

/-- The number with a sign, a biased exponent and a fraction. -/
def ofParts (negative : Bool) (exponent fraction : Nat) : Binary64 :=
  ⟨((if negative then Nat.pow 2 63 else 0) + exponent * Nat.pow 2 52 + fraction).toUInt64⟩

/-- The infinity of a sign. -/
def infinity (negative : Bool) : Binary64 := ofParts negative 2047 0

/-- The zero of a sign. -/
def zero (negative : Bool) : Binary64 := ofParts negative 0 0

/-- What stands for no number. -/
def notANumber : Binary64 := ofParts false 2047 (Nat.pow 2 51)

/-- Whether the sign bit is set. -/
def isNegative (x : Binary64) : Bool := Nat.pow 2 63 ≤ x.bits.toNat

/-- The biased exponent. -/
def exponent (x : Binary64) : Nat := x.bits.toNat / Nat.pow 2 52 % 2048

/-- The fraction bits. -/
def fraction (x : Binary64) : Nat := x.bits.toNat % Nat.pow 2 52

/-- Whether `x` stands for no number. -/
def isNotANumber (x : Binary64) : Bool := x.exponent == 2047 && x.fraction != 0

/-- Whether `x` is one of the infinities. -/
def isInfinite (x : Binary64) : Bool := x.exponent == 2047 && x.fraction == 0

/-- Whether `x` is one of the zeros. -/
def isZero (x : Binary64) : Bool := x.exponent == 0 && x.fraction == 0

/-- Equality of numbers: the zeros are equal, and what stands for no number is equal to itself. -/
def same (x y : Binary64) : Bool :=
  (x.isNotANumber && y.isNotANumber) ||
    (!x.isNotANumber && !y.isNotANumber && (x == y || (x.isZero && y.isZero)))

/-- The number with the other sign. -/
def negate (x : Binary64) : Binary64 := ofParts (!x.isNegative) x.exponent x.fraction

/-- For a finite number other than zero, `m` and `q` with `m * 2 ^ q` its magnitude. -/
def magnitude (x : Binary64) : Nat × Int :=
  if x.exponent = 0 then (x.fraction, -1074)
  else (x.fraction + Nat.pow 2 52, (x.exponent : Int) - 1075)

/-- The integer quotient, remainder and divisor of `num / (den * 2 ^ e)`. -/
def scaled (num den : Nat) (e : Int) : Nat × Nat × Nat :=
  let top := num * Nat.pow 2 (-e).toNat
  let bottom := den * Nat.pow 2 e.toNat
  (top / bottom, top % bottom, bottom)

/-- The number nearest to `num / den`, the even one of two that are equally near. -/
def ofRatio (negative : Bool) (num den : Nat) : Binary64 :=
  if num = 0 then zero negative
  else
    let guess : Int := (Nat.log2 num : Int) - Nat.log2 den - 53
    let first := max guess (-1074)
    let e := if Nat.pow 2 53 ≤ (scaled num den first).1 then first + 1 else first
    let (q, r, d) := scaled num den e
    let rounded := if d < 2 * r || (2 * r == d && q % 2 == 1) then q + 1 else q
    let (m, e) := if rounded = Nat.pow 2 53 then (Nat.pow 2 52, e + 1) else (rounded, e)
    if 971 < e then infinity negative
    else if m < Nat.pow 2 52 then ofParts negative 0 m
    else ofParts negative (e + 1075).toNat (m - Nat.pow 2 52)

/-- The number nearest to a natural number. -/
def ofNat (n : Nat) : Binary64 := ofRatio false n 1

/-- The number of decimal digits of `n`. -/
def digitCount (n : Nat) : Nat := (Nat.toDigits 10 n).length

/-- The number nearest to `digits * 10 ^ exponent`. -/
def ofDecimal (negative : Bool) (digits : Nat) (exponent : Int) : Binary64 :=
  if digits = 0 then zero negative
  else if 400 < exponent + digitCount digits then infinity negative
  else if exponent + digitCount digits < -400 then zero negative
  else ofRatio negative (digits * Nat.pow 10 exponent.toNat) (Nat.pow 10 (-exponent).toNat)

/-- The product of finite numbers, rounded. -/
def mul (x y : Binary64) : Binary64 :=
  if x.isZero || y.isZero then zero (x.isNegative != y.isNegative)
  else
    let (m, p) := x.magnitude
    let (n, q) := y.magnitude
    let e := p + q
    ofRatio (x.isNegative != y.isNegative) (m * n * Nat.pow 2 e.toNat) (Nat.pow 2 (-e).toNat)

/-- The quotient of finite numbers by one other than zero, rounded. -/
def div (x y : Binary64) : Binary64 :=
  if x.isZero then zero (x.isNegative != y.isNegative)
  else
    let (m, p) := x.magnitude
    let (n, q) := y.magnitude
    let e := p - q
    ofRatio (x.isNegative != y.isNegative) (m * Nat.pow 2 e.toNat) (n * Nat.pow 2 (-e).toNat)

/-- The power of ten of the first decimal digit of `num / den`. -/
def leadingPower (num den : Nat) : Int :=
  if den ≤ num then (digitCount (num / den) : Int) - 1
  else
    let gap := digitCount den - digitCount num
    if den ≤ num * Nat.pow 10 gap then -(gap : Int) else -(gap : Int) - 1

/-- Searches the decimal grids of 1, 2, … digits for one with a point among the reals that round
to the number, and answers the point nearest to the number as `d * 10 ^ s`. The bounds and the
number are given in quarters of its last binary place. -/
def shortestFrom (lo mid hi : Nat) (closed : Bool) (unit : Int) (power : Int) :
    Nat → Nat → Nat × Int
  | 0, _ => (0, 0)
  | tries + 1, count =>
    let s := power - count + 1
    let top (n : Nat) : Nat := n * Nat.pow 2 unit.toNat * Nat.pow 10 (-s).toNat
    let bottom : Nat := Nat.pow 2 (-unit).toNat * Nat.pow 10 s.toNat
    let below := top mid / bottom
    let inside (d : Nat) : Bool :=
      if closed then top lo ≤ d * bottom && d * bottom ≤ top hi
      else top lo < d * bottom && d * bottom < top hi
    let above := below + 1
    if inside below && inside above then
      let left := top mid - below * bottom
      let right := above * bottom - top mid
      if left < right || (left == right && below % 2 == 0) then (below, s) else (above, s)
    else if inside below then (below, s)
    else if inside above then (above, s)
    else shortestFrom lo mid hi closed unit power tries (count + 1)

/-- The fewest decimal digits that lead back to a finite number other than zero, as `d * 10 ^ s`. -/
def shortest (x : Binary64) : Nat × Int :=
  let (m, q) := x.magnitude
  let lo := if x.fraction = 0 && 1 < x.exponent then 4 * m - 1 else 4 * m - 2
  let power := leadingPower (m * Nat.pow 2 q.toNat) (Nat.pow 2 (-q).toNat)
  shortestFrom lo (4 * m) (4 * m + 2) (m % 2 == 0) (q - 2) power 20 1

/-- Drops the zeros at the end of a decimal number other than zero. -/
def dropZeros : Nat → Nat → Int → Nat × Int
  | 0, d, s => (d, s)
  | fuel + 1, d, s => if d % 10 = 0 && d != 0 then dropZeros fuel (d / 10) (s + 1) else (d, s)

/-- A finite number in decimals: positional from `1e-5` up to below `1e16` and with a fraction of
at least one digit, with an exponent elsewhere. -/
def text (x : Binary64) : String :=
  let sign := if x.isNegative then "-" else ""
  if x.isZero then sign ++ "0.0"
  else
    let (d, s) := x.shortest
    let (d, s) := dropZeros 20 d s
    let digits := Nat.toDigits 10 d
    let count := digits.length
    let point : Int := count + s
    let body :=
      if 0 ≤ s && point ≤ 16 then
        digits ++ List.replicate s.toNat '0' ++ ['.', '0']
      else if 0 < point && point ≤ 16 then
        digits.take point.toNat ++ '.' :: digits.drop point.toNat
      else if -5 < point && point ≤ 0 then
        ['0', '.'] ++ List.replicate (-point).toNat '0' ++ digits
      else
        let shown := match digits with
          | [] => []
          | [one] => [one]
          | one :: more => one :: '.' :: more
        shown ++ 'e' :: (toString (point - 1)).toList
    sign ++ String.ofList body

end Binary64

end Wayfinder
