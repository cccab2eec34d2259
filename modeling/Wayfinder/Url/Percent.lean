import Wayfinder.Text.Utf8
import Wayfinder.Number.Decimal

/-!
Characters spelled as percent signs followed by two digits of base sixteen for each octet, and back
(`decode`). Main statements: encoding works character by character (`encode_append`), and what is
kept stays as it is (`encode_of_keep`).
-/

set_option autoImplicit false
set_option relaxedAutoImplicit false

namespace Wayfinder.Url.Percent

/-- A digit of base sixteen, in upper case. -/
def digit (n : Nat) : Char := if n < 10 then Char.ofNat (48 + n) else Char.ofNat (55 + n)

/-- An octet after a percent sign. -/
def octet (b : UInt8) : List Char := ['%', digit (b.toNat / 16), digit (b.toNat % 16)]

/-- A character as it is where `keep` holds, and by its octets elsewhere. -/
def encodeChar (keep : Char → Bool) (c : Char) : List Char :=
  if keep c then [c] else (String.utf8EncodeChar c).flatMap octet

/-- The characters of a text as they are where `keep` holds, and by their octets elsewhere. -/
def encode (keep : Char → Bool) (l : List Char) : List Char := l.flatMap (encodeChar keep)

theorem encode_append (keep : Char → Bool) (l r : List Char) :
    encode keep (l ++ r) = encode keep l ++ encode keep r := by
  simp [encode]

theorem encode_of_keep {keep : Char → Bool} {l : List Char} (h : ∀ c ∈ l, keep c = true) :
    encode keep l = l := by
  induction l with
  | nil => rfl
  | cons c l ih =>
    have hc := h c List.mem_cons_self
    have hl := ih fun d hd => h d (List.mem_cons_of_mem _ hd)
    unfold encode at hl ⊢
    rw [List.flatMap_cons, hl]
    simp [encodeChar, hc]

/-- The octets that a text spells. A percent sign without two digits stands for itself. -/
def decode : List Char → List UInt8
  | [] => []
  | '%' :: a :: b :: rest =>
    match Decimal.digit? 16 a, Decimal.digit? 16 b with
    | some high, some low => (16 * high + low).toUInt8 :: decode rest
    | _, _ => 0x25 :: decode (a :: b :: rest)
  | c :: rest => String.utf8EncodeChar c ++ decode rest

/-- The characters of ASCII other than the controls. -/
def isGraphic (c : Char) : Bool := 0x20 ≤ c.toNat && c.toNat ≤ 0x7e

/-- What a fragment keeps. -/
def keepsInFragment (c : Char) : Bool :=
  isGraphic c && !(c == ' ' || c == '"' || c == '<' || c == '>' || c == '\x60')

/-- What a segment of a path keeps. -/
def keepsInPath (c : Char) : Bool :=
  keepsInFragment c && !(c == '#' || c == '?' || c == '\x7b' || c == '\x7d')

/-- What a query keeps; one of a common scheme does not keep an apostrophe. -/
def keepsInQuery (special : Bool) (c : Char) : Bool :=
  isGraphic c && !(c == ' ' || c == '"' || c == '#' || c == '<' || c == '>') &&
    !(special && c == '\'')

/-- What a single segment keeps whatever its meaning: letters, digits and four marks. -/
def isUnreserved (c : Char) : Bool :=
  c.isAlphanum || c == '-' || c == '_' || c == '.' || c == '~'

/-- A name as a segment of its own. -/
def segment (s : String) : String := String.ofList (encode isUnreserved s.toList)

end Wayfinder.Url.Percent
