import Wayfinder.Credential.Base64

/-!
Octets in labelled sections of text. Text outside of the sections is passed over, and so are
sections whose label says nothing.
-/

set_option autoImplicit false
set_option relaxedAutoImplicit false

namespace Wayfinder

/-- The octets that numbers below sixty-four spell, four by four. -/
def Base64.spelled : List Nat → List UInt8
  | x :: y :: z :: w :: rest => (octets [x, y, z, w]).1 ++ spelled rest
  | l => (octets l).1

namespace Pem

/-- What a section holds. -/
inductive Kind
  | certificate
  | key
  /-- Something else that has a meaning. -/
  | other
  deriving DecidableEq, Repr

/-- A section. -/
structure Section where
  kind : Kind
  content : List UInt8
  deriving DecidableEq, Repr

/-- The octets of a text. -/
def ascii (s : String) : List UInt8 := s.toUTF8.toList

/-- The labels that say what a section holds. -/
def labels : List (List UInt8 × Kind) :=
  [(ascii "CERTIFICATE", .certificate), (ascii "PRIVATE KEY", .key),
    (ascii "RSA PRIVATE KEY", .key), (ascii "EC PRIVATE KEY", .key),
    (ascii "PUBLIC KEY", .other), (ascii "X509 CRL", .other),
    (ascii "CERTIFICATE REQUEST", .other), (ascii "ECHCONFIG", .other)]

/-- Whether an octet ends a line. -/
def isBreak (b : UInt8) : Bool := b == 0x0a || b == 0x0d

/-- Whether an octet is passed over among the symbols. -/
def isGap (b : UInt8) : Bool := isBreak b || b == 0x20 || b == 0x09

/-- The lines of a text, without their ends. -/
def lines : List UInt8 → List (List UInt8)
  | [] => [[]]
  | b :: rest =>
    if isBreak b then [] :: lines rest
    else
      match lines rest with
      | [] => [[b]]
      | line :: more => (b :: line) :: more

/-- What a line that starts a section begins with. -/
def opening : List UInt8 := ascii "-----BEGIN "

/-- What a line that ends a section begins with. -/
def closing (label : List UInt8) : List UInt8 := ascii "-----END " ++ label ++ ascii "-----"

/-- The label in a line that starts a section; none when other than five dashes end it. -/
def label? (line : List UInt8) : Option (List UInt8) :=
  let isDash (b : UInt8) : Bool := b == 0x2d
  let isTail (b : UInt8) : Bool := isDash b || b == 0x20
  let tail := line.reverse.takeWhile isTail
  if (tail.filter isDash).length = 5 then
    let kept := (line.reverse.drop ((tail.reverse.dropWhile (!isDash ·)).length)).reverse
    some (kept.drop opening.length)
  else none

/-- The octets that symbols spell, with gaps between them, and with or without what fills up the
last four. -/
def content? (l : List UInt8) : Option (List UInt8) :=
  let symbols := l.filter (!isGap ·)
  let shown := symbols.takeWhile (· != Base64.filler)
  let fillers := symbols.dropWhile (· != Base64.filler)
  let isFilled :=
    if fillers.isEmpty then shown.length % 4 != 1
    else fillers.all (· == Base64.filler) && fillers.length ≤ 2 &&
      symbols.length % 4 == 0
  if isFilled then (shown.mapM Base64.standard.value?).map Base64.spelled else none

/-- The sections in lines; within a section, with its label and what has been read of it. A section
that is not ended, or whose symbols spell nothing, makes everything unreadable. -/
def sectionsFrom : Option (List UInt8) → List UInt8 → List (List UInt8) → Option (List Section)
  | none, _, [] => some []
  | some _, _, [] => none
  | current, body, line :: rest =>
    if opening.isPrefixOf line then
      match label? line with
      | none => none
      | some label => sectionsFrom (some label) body rest
    else
      match current with
      | none => sectionsFrom none body rest
      | some label =>
        if (closing label).isPrefixOf line then
          match labels.lookup label with
          | none => sectionsFrom none [] rest
          | some kind =>
            match content? body, sectionsFrom none [] rest with
            | some content, some more => some ({ kind, content } :: more)
            | _, _ => none
        else sectionsFrom (some label) (body ++ line) rest

/-- The sections of a text. -/
def sections? (text : List UInt8) : Option (List Section) := sectionsFrom none [] (lines text)

end Pem

end Wayfinder
