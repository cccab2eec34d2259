import Wayfinder.Credential.Pem

/-!
Certificates and keys, as far as their shape goes: nested values that each begin with a tag and a
length. Main statement: a value and what follows it make up the octets (`length_element?`).
-/

set_option autoImplicit false
set_option relaxedAutoImplicit false

namespace Wayfinder.Certificate

/-- The number that octets spell, the most significant one first. -/
def number (l : List UInt8) : Nat := l.foldl (fun n b => n * 256 + b.toNat) 0

/-- The length at the start of octets, in its shortest spelling. -/
def length? : List UInt8 → Option (Nat × List UInt8)
  | [] => none
  | b :: rest =>
    let count := b.toNat - 0x80
    if b < 0x80 then some (b.toNat, rest)
    else if count = 0 || 4 < count || rest.length < count then none
    else
      let n := number (rest.take count)
      if n < 0x80 || n < Nat.pow 256 (count - 1) then none else some (n, rest.drop count)

/-- The value at the start of octets: its tag, its content, and what follows. -/
def element? : List UInt8 → Option (UInt8 × List UInt8 × List UInt8)
  | [] => none
  | tag :: rest =>
    if tag % 32 == 31 then none
    else
      match length? rest with
      | none => none
      | some (n, rest) =>
        if rest.length < n then none else some (tag, rest.take n, rest.drop n)

/-- The content of a value under a tag, and what follows. -/
def expect? (tag : UInt8) (l : List UInt8) : Option (List UInt8 × List UInt8) :=
  match element? l with
  | some (found, content, rest) => if found == tag then some (content, rest) else none
  | none => none

/-- The content of a value under a tag that nothing follows. -/
def whole? (tag : UInt8) (l : List UInt8) : Option (List UInt8) :=
  match expect? tag l with
  | some (content, []) => some content
  | _ => none

/-- The tag of a number. -/
def numberTag : UInt8 := 0x02

/-- The tag of a string of bits. -/
def bitsTag : UInt8 := 0x03

/-- The tag of a sequence. -/
def sequenceTag : UInt8 := 0x30

/-- The tag of the version of a certificate. -/
def versionTag : UInt8 := 0xa0

/-- The tag of the extensions of a certificate. -/
def extensionsTag : UInt8 := 0xa3

/-- What follows the version of a certificate, and whether it is the third. A certificate that does
not say its version is of the first. -/
def version? (l : List UInt8) : Option (Bool × List UInt8) :=
  match expect? versionTag l with
  | some (content, rest) => if whole? numberTag content == some [2] then some (true, rest) else none
  | none => some (false, l)

/-- Whether octets are a certificate by their shape. -/
def isReadable (l : List UInt8) : Bool :=
  (do
    let signed ← whole? sequenceTag l
    let (described, rest) ← expect? sequenceTag signed
    let (algorithm, rest) ← expect? sequenceTag rest
    let bits ← whole? bitsTag rest
    let (isThird, rest) ← version? described
    let (_, rest) ← expect? numberTag rest
    let (named, rest) ← expect? sequenceTag rest
    let (_, rest) ← expect? sequenceTag rest
    let (_, rest) ← expect? sequenceTag rest
    let (_, rest) ← expect? sequenceTag rest
    let (_, rest) ← expect? sequenceTag rest
    let isEnded := rest.isEmpty || (isThird && ((whole? extensionsTag rest).bind
      (whole? sequenceTag)).isSome)
    some (isEnded && named == algorithm && bits.head? == some 0)).getD false

/-- Whether octets are a key by their shape. -/
def isKey (l : List UInt8) : Bool :=
  match whole? sequenceTag l with
  | some content => (expect? numberTag content).isSome
  | none => false

theorem length_element? {l : List UInt8} {tag : UInt8} {content rest : List UInt8}
    (h : element? l = some (tag, content, rest)) : content.length + rest.length < l.length := by
  cases l with
  | nil => simp [element?] at h
  | cons b l =>
    have hlen : ∀ {n : Nat} {r : List UInt8}, length? l = some (n, r) → r.length ≤ l.length := by
      intro n r hr
      cases l with
      | nil => simp [length?] at hr
      | cons c l =>
        simp only [length?] at hr
        split at hr
        · obtain ⟨_, rfl⟩ := by simpa using hr
          simp
        · split at hr
          · simp at hr
          · split at hr
            · simp at hr
            · obtain ⟨_, rfl⟩ := by simpa using hr
              simp only [List.length_drop, List.length_cons]
              omega
    simp only [element?] at h
    split at h
    · simp at h
    · split at h
      · simp at h
      · next n r hr =>
        split at h
        · simp at h
        · obtain ⟨_, rfl, rfl⟩ := by simpa using h
          have := hlen hr
          simp only [List.length_take, List.length_drop, List.length_cons]
          omega

end Wayfinder.Certificate
