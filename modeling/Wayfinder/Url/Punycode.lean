/-!
Labels of letters beyond ASCII spelled in ASCII: the ASCII letters first, and then, for every other
letter in the order of the code points, where it is to be put in.
-/

set_option autoImplicit false
set_option relaxedAutoImplicit false

namespace Wayfinder.Url.Punycode

/-- The digit of base 36 for a number. -/
def digit (n : Nat) : Char := if n < 26 then Char.ofNat (97 + n) else Char.ofNat (22 + n)

/-- The number for a digit of base 36 in either case. -/
def value? (c : Char) : Option Nat :=
  if 'a' ≤ c && c ≤ 'z' then some (c.toNat - 97)
  else if 'A' ≤ c && c ≤ 'Z' then some (c.toNat - 65)
  else if '0' ≤ c && c ≤ '9' then some (c.toNat - 22)
  else none

/-- Divides a step down to the range in which a bias is read off. -/
def shrink : Nat → Nat → Nat → Nat
  | 0, _, k => k
  | fuel + 1, delta, k => if 455 < delta then shrink fuel (delta / 35) (k + 36) else
    k + 36 * delta / (delta + 38)

/-- The bias after a step. -/
def adapt (delta count : Nat) (first : Bool) : Nat :=
  let delta := if first then delta / 700 else delta / 2
  let delta := delta + delta / count
  shrink delta delta 0

/-- The threshold of the digit at position `k`. -/
def threshold (k bias : Nat) : Nat :=
  if k ≤ bias then 1 else if bias + 26 ≤ k then 26 else k - bias

/-- The digits of a step. -/
def stepDigits (bias : Nat) : Nat → Nat → Nat → List Char
  | 0, _, _ => []
  | fuel + 1, k, q =>
    let t := threshold k bias
    if q < t then [digit q]
    else digit (t + (q - t) % (36 - t)) :: stepDigits bias fuel (k + 36) ((q - t) / (36 - t))

/-- How far the encoder has come. -/
structure Progress where
  delta : Nat
  bias : Nat
  handled : Nat
  output : List Char

/-- Passes over the letters once, putting in those equal to `n`. -/
def encodePass (n basic : Nat) (letters : List Nat) (p : Progress) : Progress :=
  letters.foldl (fun p c =>
    if c < n then { p with delta := p.delta + 1 }
    else if c = n then
      { delta := 0
        bias := adapt p.delta (p.handled + 1) (p.handled == basic)
        handled := p.handled + 1
        output := p.output ++ stepDigits p.bias (p.delta + 1) 36 p.delta }
    else p) p

/-- Puts in the letters from `n` on. -/
def encodeFrom (basic : Nat) (letters : List Nat) : Nat → Nat → Progress → List Char
  | 0, _, p => p.output
  | fuel + 1, n, p =>
    match (letters.filter (n ≤ ·)).min? with
    | none => p.output
    | some next =>
      let p := { p with delta := p.delta + (next - n) * (p.handled + 1) }
      let p := encodePass next basic letters p
      encodeFrom basic letters fuel (next + 1) { p with delta := p.delta + 1 }

/-- A label in ASCII. -/
def encode (l : List Char) : List Char :=
  let basic := l.filter (fun c => c.toNat < 128)
  let start := if basic.isEmpty then [] else basic ++ ['-']
  encodeFrom basic.length (l.map (·.toNat)) (l.length + 1) 128
    { delta := 0, bias := 72, handled := basic.length, output := start }

/-- Reads a step; answers it and what is left. -/
def readStep (bias : Nat) : Nat → Nat → Nat → List Char → Option (Nat × List Char)
  | _, _, _, [] => none
  | k, weight, step, c :: rest =>
    match value? c with
    | none => none
    | some d =>
      let step := step + d * weight
      let t := threshold k bias
      if d < t then some (step, rest) else readStep bias (k + 36) (weight * (36 - t)) step rest

/-- Puts in one letter for each step: `n` is the letter and `i` the place of the step before. -/
def decodeFrom : Nat → Nat → Nat → Nat → List Nat → List Char → Option (List Nat)
  | 0, _, _, _, _, _ => none
  | _ + 1, _, _, _, done, [] => some done
  | fuel + 1, n, i, bias, done, l =>
    match readStep bias 36 1 0 l with
    | none => none
    | some (step, rest) =>
      let count := done.length + 1
      let next := n + (i + step) / count
      let place := (i + step) % count
      if 0x10ffff < next then none
      else
        decodeFrom fuel next (place + 1) (adapt step count (i == 0))
          (done.take place ++ next :: done.drop place) rest

/-- The characters of code points, none of which is a surrogate. -/
def chars? (codes : List Nat) : Option (List Char) :=
  if codes.any (fun n => 0xd800 ≤ n && n ≤ 0xdfff) then none else some (codes.map Char.ofNat)

/-- The label that is spelled in ASCII. -/
def decode (l : List Char) : Option (List Char) :=
  let tail := (l.reverse.takeWhile (· ≠ '-')).reverse
  let basic := (l.take (l.length - tail.length)).dropLast
  (decodeFrom (tail.length + 1) 128 0 72 (basic.map (·.toNat)) tail).bind chars?

end Wayfinder.Url.Punycode
