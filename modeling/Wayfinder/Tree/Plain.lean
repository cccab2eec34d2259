import Wayfinder.Value
import Wayfinder.Number.Decimal

/-!
What an unquoted text stands for when nobody says what is wanted: nothing, a truth value, a whole
number, a number, or else the text itself.
-/

set_option autoImplicit false
set_option relaxedAutoImplicit false

namespace Wayfinder.Plain

/-- The spellings of the absent value. -/
def isNull (s : String) : Bool := s == "null" || s == "Null" || s == "NULL" || s == "~"

/-- The truth value that a text spells. -/
def bool? (s : String) : Option Bool :=
  if s == "true" || s == "True" || s == "TRUE" then some true
  else if s == "false" || s == "False" || s == "FALSE" then some false
  else none

/-- The text without a sign of the given kind at its start. -/
def dropSign (sign : Char) : List Char → List Char
  | c :: rest => if c = sign then rest else c :: rest
  | [] => []

/-- Whether a text starts with a sign. -/
def signed : List Char → Bool
  | c :: _ => c == '+' || c == '-'
  | [] => false

/-- Digits after a zero are a text and not a number. -/
def isZeroLed (l : List Char) : Bool :=
  let body := match l with
    | c :: rest => if c == '-' || c == '+' then rest else l
    | [] => []
  match body with
  | '0' :: c :: rest => (c :: rest).all Decimal.isDigit
  | _ => false

/-- The number that a text spells after the mark of a base. -/
def based? (l : List Char) : Option Nat :=
  match l with
  | '0' :: 'x' :: rest => Decimal.nat? 16 rest
  | '0' :: 'o' :: rest => Decimal.nat? 8 rest
  | '0' :: 'b' :: rest => Decimal.nat? 2 rest
  | _ => none

/-- The whole number that a text spells, of any size. -/
def int? (s : String) : Option Int :=
  let l := s.toList
  let unsigned := dropSign '+' l
  match based? unsigned with
  | some n => some n
  | none =>
    match (if signed unsigned || isZeroLed l then none else Decimal.nat? 10 unsigned) with
    | some n => some n
    | none =>
      match l with
      | '-' :: rest =>
        match based? rest with
        | some n => some (-(n : Int))
        | none => if isZeroLed l then none else (Decimal.nat? 10 rest).map fun n => -(n : Int)
      | _ => none

/-- Whether a whole number has one of the two 64-bit forms. -/
def fits (n : Int) : Bool := -(Nat.pow 2 63) ≤ n && n < Nat.pow 2 64

/-- Whether a whole number has one of the two 128-bit forms. -/
def fitsWide (n : Int) : Bool := -(Nat.pow 2 127) ≤ n && n < Nat.pow 2 128

/-- The number that a text spells, infinities and the lack of a number included. -/
def float? (s : String) : Option Binary64 :=
  let l := s.toList
  let unsigned := dropSign '+' l
  let plus := match l with
    | '+' :: _ => true
    | _ => false
  if plus && signed unsigned then none
  else
    let body := String.ofList unsigned
    if body == ".inf" || body == ".Inf" || body == ".INF" then some (Binary64.infinity false)
    else if s == "-.inf" || s == "-.Inf" || s == "-.INF" then some (Binary64.infinity true)
    else if s == ".nan" || s == ".NaN" || s == ".NAN" then some Binary64.notANumber
    else Decimal.float? unsigned

/-- The value of an unquoted text; none for a whole number that needs more than 64 bits. -/
def resolve? (s : String) : Option Value :=
  if s.isEmpty || isNull s then some .null
  else
    match bool? s with
    | some b => some (.bool b)
    | none =>
      match (int? s).filter fitsWide with
      | some n => if fits n then some (.int n) else none
      | none =>
        match (if isZeroLed s.toList then none else float? s) with
        | some x => some (.float x)
        | none => some (.string s)

end Wayfinder.Plain
