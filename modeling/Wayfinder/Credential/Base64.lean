/-!
Octets spelled in sixty-four symbols, four symbols for three octets. Two alphabets differ in their
last two symbols and in whether the last four symbols are filled up.
-/

set_option autoImplicit false
set_option relaxedAutoImplicit false

namespace Wayfinder

/-- An alphabet of sixty-four symbols. -/
structure Base64 where
  /-- The symbol for 62. -/
  plus : UInt8
  /-- The symbol for 63. -/
  slash : UInt8
  /-- Whether the last four symbols are filled up. -/
  filled : Bool

/-- Why a text spells no octets. -/
inductive Base64Fault
  | symbol (b : UInt8) (offset : Nat)
  | lastSymbol (b : UInt8) (offset : Nat)
  | length (n : Nat)
  | filling
  deriving DecidableEq, Repr

/-- The wording of a fault. -/
def Base64Fault.message : Base64Fault → String
  | .symbol b offset =>
    "Invalid symbol " ++ toString b.toNat ++ ", offset " ++ toString offset ++ "."
  | .lastSymbol b offset =>
    "Invalid last symbol " ++ toString b.toNat ++ ", offset " ++ toString offset ++ "."
  | .length n => "Invalid input length: " ++ toString n
  | .filling => "Invalid padding"

namespace Base64

/-- The common alphabet. -/
def standard : Base64 := ⟨0x2b, 0x2f, true⟩

/-- The alphabet for names in addresses. -/
def forUrls : Base64 := ⟨0x2d, 0x5f, false⟩

/-- What fills up the last four symbols: the equals sign. -/
def filler : UInt8 := 0x3d

/-- The number that a symbol stands for. -/
def value? (a : Base64) (b : UInt8) : Option Nat :=
  if 0x41 ≤ b && b ≤ 0x5a then some (b.toNat - 0x41)
  else if 0x61 ≤ b && b ≤ 0x7a then some (b.toNat - 0x61 + 26)
  else if 0x30 ≤ b && b ≤ 0x39 then some (b.toNat - 0x30 + 52)
  else if b == a.plus then some 62
  else if b == a.slash then some 63
  else none

/-- The symbol for a number. -/
def symbol (a : Base64) (n : Nat) : UInt8 :=
  if n < 26 then (0x41 + n).toUInt8
  else if n < 52 then (0x61 + (n - 26)).toUInt8
  else if n < 62 then (0x30 + (n - 52)).toUInt8
  else if n = 62 then a.plus
  else a.slash

/-- The numbers of symbols from an offset on. -/
def values (a : Base64) : Nat → List UInt8 → Except Base64Fault (List Nat)
  | _, [] => .ok []
  | offset, b :: rest =>
    match a.value? b with
    | none => .error (.symbol b offset)
    | some n =>
      match values a (offset + 1) rest with
      | .error fault => .error fault
      | .ok more => .ok (n :: more)

/-- The octets of up to four numbers, with what is left over of the last number. -/
def octets : List Nat → List UInt8 × Nat
  | [x, y] => ([(x * 4 + y / 16).toUInt8], y % 16)
  | [x, y, z] => ([(x * 4 + y / 16).toUInt8, (y % 16 * 16 + z / 4).toUInt8], z % 4)
  | [x, y, z, w] =>
    ([(x * 4 + y / 16).toUInt8, (y % 16 * 16 + z / 4).toUInt8, (z % 4 * 64 + w).toUInt8], 0)
  | _ => ([], 0)

/-- The octets of the last symbols, of which there are at most four. Fillers stand at their end,
after two symbols at least. -/
def decodeLast (a : Base64) (offset : Nat) (l : List UInt8) : Except Base64Fault (List UInt8) :=
  let shown := l.takeWhile (· != filler)
  let fillers := l.dropWhile (· != filler)
  match a.values offset shown with
  | .error fault => .error fault
  | .ok numbers =>
    if !fillers.isEmpty && (shown.length < 2 || fillers.any (· != filler)) then
      .error (.symbol filler (offset + shown.length))
    else if l.isEmpty && offset = 0 then .ok []
    else if shown.length < 2 then .error (.length (offset + shown.length))
    else if (if a.filled then l.length % 4 != 0 else !fillers.isEmpty) then .error .filling
    else
      let (bytes, left) := octets numbers
      if left = 0 then .ok bytes
      else .error (.lastSymbol (shown.getLast?.getD 0) (offset + shown.length - 1))

/-- The octets of symbols from an offset on. -/
def decodeFrom (a : Base64) (offset : Nat) : List UInt8 → Except Base64Fault (List UInt8)
  | x :: y :: z :: w :: next :: rest =>
    match a.values offset [x, y, z, w] with
    | .error fault => .error fault
    | .ok numbers =>
      match decodeFrom a (offset + 4) (next :: rest) with
      | .error fault => .error fault
      | .ok more => .ok ((octets numbers).1 ++ more)
  | l => a.decodeLast offset l

/-- The octets that symbols spell. A symbol too many at the end is looked at first. -/
def decode (a : Base64) (l : List UInt8) : Except Base64Fault (List UInt8) :=
  match l.getLast? with
  | some last =>
    if l.length % 4 = 1 && last != filler && (a.value? last).isNone then
      .error (.symbol last (l.length - 1))
    else a.decodeFrom 0 l
  | none => .ok []

/-- Octets in symbols. -/
def encode (a : Base64) : List UInt8 → List UInt8
  | [] => []
  | [x] =>
    [a.symbol (x.toNat / 4), a.symbol (x.toNat % 4 * 16)] ++
      if a.filled then [filler, filler] else []
  | [x, y] =>
    [a.symbol (x.toNat / 4), a.symbol (x.toNat % 4 * 16 + y.toNat / 16),
      a.symbol (y.toNat % 16 * 4)] ++ if a.filled then [filler] else []
  | x :: y :: z :: rest =>
    a.symbol (x.toNat / 4) :: a.symbol (x.toNat % 4 * 16 + y.toNat / 16) ::
      a.symbol (y.toNat % 16 * 4 + z.toNat / 64) :: a.symbol (z.toNat % 64) :: encode a rest

end Base64

end Wayfinder
