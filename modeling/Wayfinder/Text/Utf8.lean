/-!
Octets and the characters they spell. Reading is strict (`decode`), or puts the replacement
character for each longest run of octets that starts a character and does not finish it
(`decodeLossy`). Main statement: `decode_encode`.
-/

set_option autoImplicit false
set_option relaxedAutoImplicit false

namespace Wayfinder.Text

/-- The octets of a text. -/
def encode (s : String) : ByteArray := s.toUTF8

/-- The text that the octets spell, if they spell one. -/
def decode (bytes : ByteArray) : Option String := String.fromUTF8? bytes

theorem decode_encode (s : String) : decode (encode s) = some s := by
  have h : (encode s).IsValidUTF8 := s.isValidUTF8
  unfold decode String.fromUTF8?
  rw [dif_pos h]
  rfl

/-- The octets that may follow a first octet, and how many octets the character has. -/
def followers (first : UInt8) : Option (Nat × UInt8 × UInt8) :=
  if first < 0x80 then some (0, 0x80, 0xbf)
  else if first < 0xc2 then none
  else if first < 0xe0 then some (1, 0x80, 0xbf)
  else if first == 0xe0 then some (2, 0xa0, 0xbf)
  else if first == 0xed then some (2, 0x80, 0x9f)
  else if first < 0xf0 then some (2, 0x80, 0xbf)
  else if first == 0xf0 then some (3, 0x90, 0xbf)
  else if first < 0xf4 then some (3, 0x80, 0xbf)
  else if first == 0xf4 then some (3, 0x80, 0x8f)
  else none

/-- Takes up to `count` following octets, the first of which lies between `lo` and `hi`; answers
the code point so far, whether all were there, and what is left. -/
def takeFollowers : Nat → UInt8 → UInt8 → Nat → List UInt8 → Nat × Bool × List UInt8
  | 0, _, _, code, rest => (code, true, rest)
  | _ + 1, _, _, code, [] => (code, false, [])
  | count + 1, lo, hi, code, b :: rest =>
    if lo ≤ b && b ≤ hi then
      takeFollowers count 0x80 0xbf (code * 64 + (b.toNat - 0x80)) rest
    else (code, false, b :: rest)

theorem length_takeFollowers (count : Nat) (lo hi : UInt8) (code : Nat) (l : List UInt8) :
    (takeFollowers count lo hi code l).2.2.length ≤ l.length := by
  induction count generalizing lo hi code l with
  | zero => simp [takeFollowers]
  | succ count ih =>
    cases l with
    | nil => simp [takeFollowers]
    | cons b rest =>
      rw [takeFollowers]
      split
      · exact Nat.le_succ_of_le (ih _ _ _ _)
      · simp

/-- The bits of the code point that a first octet holds. -/
def leadBits (first : UInt8) (count : Nat) : Nat :=
  if count = 0 then first.toNat
  else if count = 1 then first.toNat % 32
  else if count = 2 then first.toNat % 16
  else first.toNat % 8

/-- The characters that the octets spell, with the replacement character for what spells none. -/
def decodeLossy : List UInt8 → List Char
  | [] => []
  | b :: rest =>
    match followers b with
    | none => Char.ofNat 0xfffd :: decodeLossy rest
    | some (count, lo, hi) =>
      let taken := takeFollowers count lo hi (leadBits b count) rest
      (if taken.2.1 then Char.ofNat taken.1 else Char.ofNat 0xfffd) :: decodeLossy taken.2.2
termination_by l => l.length
decreasing_by
  · simp
  · exact Nat.lt_succ_of_le (length_takeFollowers _ _ _ _ _)

end Wayfinder.Text
