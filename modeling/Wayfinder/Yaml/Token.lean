import Wayfinder.Yaml.Scalar
import Wayfinder.Text.Utf8

/-!
The tokens of a YAML text. Indentation becomes tokens that open and close blocks, and a key is
marked as such once the colon after it is found.
-/

set_option autoImplicit false
set_option relaxedAutoImplicit false

namespace Wayfinder.Yaml

/-- A token. -/
inductive Token
  | version (major minor : Nat)
  | tagShorthand (handle start : String)
  | documentStart
  | documentEnd
  | blockSequence
  | blockMapping
  | blockEnd
  | flowSequence
  | flowSequenceEnd
  | flowMapping
  | flowMappingEnd
  | flowEntry
  | blockEntry
  | key
  | value
  | reference (name : String)
  | anchor (name : String)
  | tag (handle suffix : String)
  | scalar (text : String) (isPlain : Bool)
  deriving DecidableEq, Repr

/-- A place where a key may have begun: the number of tokens before it, and the place itself. -/
structure KeyStart where
  tokens : Nat
  index : Nat
  line : Nat
  column : Nat
  /-- Whether nothing but a key can stand there. -/
  required : Bool

/-- How far a text has been read into tokens. -/
structure Lexing where
  reach : Reach
  /-- The tokens so far, the latest first. -/
  tokens : List Token := []
  /-- The column of the innermost block, -1 when there is none. -/
  indent : Int := -1
  /-- The columns of the blocks around it. -/
  outer : List Int := []
  /-- Whether a key may begin at the place. -/
  keyAllowed : Bool := true
  /-- Where a key may have begun in the innermost level of brackets. -/
  keyStart : Option KeyStart := none
  /-- The same for the levels around it; its length is the number of brackets open. -/
  outerKeys : List (Option KeyStart) := []

namespace Lexing

/-- Whether the place stands within brackets. -/
def inFlow (s : Lexing) : Bool := !s.outerKeys.isEmpty

/-- The characters that a text may hold. -/
def isAllowed (c : Char) : Bool :=
  let n := c.toNat
  n == 9 || n == 10 || n == 13 || (0x20 ≤ n && n ≤ 0x7e) || n == 0x85 ||
    (0xa0 ≤ n && n ≤ 0xfffd) || 0x10000 ≤ n

/-- The characters of names of anchors, of handles of tags and of directives. -/
def isNameChar (c : Char) : Bool := c.isAlphanum || c == '_' || c == '-'

/-- Adds a token. -/
def push (token : Token) (s : Lexing) : Lexing := { s with tokens := token :: s.tokens }

/-- Adds a token of `n` characters at the place. -/
def pushSkip (token : Token) (n : Nat) (s : Lexing) : Lexing :=
  { s with tokens := token :: s.tokens, reach := s.reach.skip n }

/-- Adds tokens before the ones that came after the first `count`. -/
def insertAt (count : Nat) (added : List Token) (s : Lexing) : Lexing :=
  let later := s.tokens.length - count
  { s with tokens := s.tokens.take later ++ added.reverse ++ s.tokens.drop later }

/-- Forgets a key start that a key can no longer come from; none when a key had to stand there. -/
def dropStale? (s : Lexing) : Option Lexing :=
  let stale (k : KeyStart) : Bool :=
    k.line < s.reach.line || k.index + 1024 < s.reach.index
  let check (o : Option KeyStart) : Option (Option KeyStart) :=
    match o with
    | none => some none
    | some k => if stale k then (if k.required then none else some none) else some (some k)
  match check s.keyStart, s.outerKeys.mapM check with
  | some keyStart, some outerKeys => some { s with keyStart, outerKeys }
  | _, _ => none

/-- Forgets the key start of the level; none when a key had to stand there. -/
def dropKeyStart? (s : Lexing) : Option Lexing :=
  match s.keyStart with
  | some k => if k.required then none else some { s with keyStart := none }
  | none => some s

/-- Notes that a key may begin at the place. -/
def noteKeyStart? (s : Lexing) : Option Lexing :=
  if s.keyAllowed then
    s.dropKeyStart?.map fun s =>
      { s with
        keyStart := some
          { tokens := s.tokens.length, index := s.reach.index, line := s.reach.line,
            column := s.reach.column,
            required := !s.inFlow && s.indent == (s.reach.column : Int) } }
  else some s

/-- Closes the blocks to the right of a column. -/
def closeBlocks (column : Int) (s : Lexing) : Lexing :=
  if s.inFlow then s
  else
    let rec close (s : Lexing) : List Int → Lexing
      | [] => s
      | parent :: outer =>
        if s.indent > column then close { s.push .blockEnd with indent := parent, outer } outer
        else s
    close s s.outer

/-- Opens a block at a column, unless one is open there or to the right of it. -/
def openBlock (column : Nat) (token : Token) (s : Lexing) : Lexing :=
  if !s.inFlow && s.indent < (column : Int) then
    { s.push token with indent := column, outer := s.indent :: s.outer }
  else s

/-- The place of the next token: white space and comments are passed over. -/
def skipGaps : Nat → Lexing → Lexing
  | 0, s => s
  | fuel + 1, s =>
    let mark := Char.ofNat 0xfeff
    let r := if s.reach.index == 0 && s.reach.rest.head? == some mark then s.reach.skip 1
      else s.reach
    let r := r.skipWhile fun c => c == ' ' || (c == '\t' && (s.inFlow || !s.keyAllowed))
    let r := match r.rest with
      | '#' :: _ => r.skipWhile fun c => !isBreak c
      | _ => r
    match r.rest with
    | c :: _ =>
      if isBreak c then
        skipGaps fuel { s with reach := r.takeBreak.2, keyAllowed := s.keyAllowed || !s.inFlow }
      else { s with reach := r }
    | [] => { s with reach := r }

/-- The octet that two digits of base sixteen after a percent sign spell. -/
def percentOctet? : List Char → Option (UInt8 × List Char)
  | '%' :: a :: b :: rest => (Decimal.nat? 16 [a, b]).map fun n => (n.toUInt8, rest)
  | _ => none

/-- The octets of one character in percent signs. -/
def percentOctets? (count : Nat) (l : List Char) : Option (List UInt8 × List Char) :=
  match count with
  | 0 => some ([], l)
  | count + 1 => do
    let (b, rest) ← percentOctet? l
    let (more, rest) ← percentOctets? count rest
    some (b :: more, rest)

/-- The character that percent signs spell at the start of a text, and what follows. -/
def percentChar? (l : List Char) : Option (List Char × List Char) := do
  let (first, _) ← percentOctet? l
  let (count, _, _) ← Text.followers first
  let (octets, rest) ← percentOctets? (count + 1) l
  match Text.decodeLossy octets with
  | [c] => if c = Char.ofNat 0xfffd then none else some ([c], rest)
  | _ => none

/-- The characters that a tag may hold as they are. -/
def isTagChar (brackets : Bool) (c : Char) : Bool :=
  isNameChar c || ";/?:@&=+$.!~*'()".toList.contains c ||
    (brackets && (c == ',' || c == '[' || c == ']'))

/-- Reads the characters of a tag. -/
def tagText (brackets : Bool) : Nat → List Char → Reach → Option (List Char × Reach)
  | 0, _, _ => none
  | fuel + 1, done, r =>
    match r.rest with
    | [] => some (done, r)
    | c :: _ =>
      if c == '%' then
        match percentChar? r.rest with
        | none => none
        | some (text, rest) =>
          tagText brackets fuel (done ++ text) (r.skip (r.rest.length - rest.length))
      else if isTagChar brackets c then tagText brackets fuel (done ++ [c]) (r.skip 1)
      else some (done, r)

/-- Reads the characters of a tag, of which there must be some. -/
def tagText? (brackets : Bool) (start : List Char) (r : Reach) : Option (String × Reach) :=
  match tagText brackets (r.rest.length + 1) [] r with
  | none => none
  | some (text, next) =>
    if start.isEmpty && text.isEmpty then none
    else some (String.ofList (start.drop 1 ++ text), next)

/-- Reads the handle of a tag: an exclamation mark, and a name with a second one after it. -/
def handle? (r : Reach) : Option (List Char × Reach) :=
  match r.rest with
  | '!' :: _ =>
    let (name, next) := (r.skip 1).takeWhile isNameChar
    match next.rest with
    | '!' :: _ => some ('!' :: name ++ ['!'], next.skip 1)
    | _ => some ('!' :: name, next)
  | _ => none

/-- Reads a tag. -/
def lexTag? (s : Lexing) : Option Lexing := do
  let (token, next) ←
    match s.reach.rest with
    | '!' :: '<' :: _ => do
      let (text, next) ← tagText? true [] (s.reach.skip 2)
      match next.rest with
      | '>' :: _ => some (Token.tag "" text, next.skip 1)
      | _ => none
    | _ => do
      let (handle, next) ← handle? s.reach
      if 1 < handle.length && handle.getLast? == some '!' then do
        let (text, next) ← tagText? false [] next
        some (Token.tag (String.ofList handle) text, next)
      else do
        let (text, next) ← tagText? false handle next
        some (if text.isEmpty then Token.tag "" "!" else Token.tag "!" text, next)
  if atGap next.rest || (s.inFlow && next.rest.head? == some ',') then
    some { s with tokens := token :: s.tokens, reach := next }
  else none

/-- Reads a number of a version. -/
def versionNumber? (r : Reach) : Option (Nat × Reach) :=
  let (digits, next) := r.takeWhile Decimal.isDigit
  if 9 < digits.length then none else (Decimal.nat? 10 digits).map fun n => (n, next)

/-- Reads a directive. -/
def lexDirective? (s : Lexing) : Option Lexing := do
  let (name, r) := (s.reach.skip 1).takeWhile isNameChar
  if name.isEmpty || !atGap r.rest then none
  else do
    let r := r.skipWhile isSpacing
    let (token, r) ←
      match String.ofList name with
      | "YAML" => do
        let (major, r) ← versionNumber? r
        match r.rest with
        | '.' :: _ => do
          let (minor, r) ← versionNumber? (r.skip 1)
          some (Token.version major minor, r)
        | _ => none
      | "TAG" => do
        let (handle, r) ← handle? r
        if handle.getLast? != some '!' || !(r.rest.head?.any isSpacing) then none
        else do
          let (start, r) ← tagText? true [] (r.skipWhile isSpacing)
          if atGap r.rest then some (Token.tagShorthand (String.ofList handle) start, r) else none
      | _ => none
    let r ← r.skipComment?
    some { s with tokens := token :: s.tokens, reach := r.takeBreak.2 }

/-- Reads the name of an anchor or of a reference to one. -/
def lexName? (token : String → Token) (s : Lexing) : Option Lexing :=
  let (name, r) := (s.reach.skip 1).takeWhile isNameChar
  if name.isEmpty || !(atGap r.rest || r.rest.head?.any "?:,]\x7d%@\x60".toList.contains) then none
  else some { s with tokens := token (String.ofList name) :: s.tokens, reach := r }

/-- Opens brackets. -/
def openFlow? (token : Token) (s : Lexing) : Option Lexing :=
  s.noteKeyStart?.map fun s =>
    { s.pushSkip token 1 with
      keyStart := none, outerKeys := s.keyStart :: s.outerKeys, keyAllowed := true }

/-- Closes brackets. -/
def closeFlow? (token : Token) (s : Lexing) : Option Lexing :=
  s.dropKeyStart?.map fun s =>
    let (keyStart, outerKeys) := match s.outerKeys with
      | k :: outer => (k, outer)
      | [] => (none, [])
    { s.pushSkip token 1 with keyStart, outerKeys, keyAllowed := false }

/-- Reads a dash, a question mark or a colon that can not belong to a key: it opens a block. -/
def lexMark? (opening token : Token) (keyAfter : Bool) (s : Lexing) : Option Lexing :=
  if !s.inFlow && !s.keyAllowed then none
  else
    (s.openBlock s.reach.column opening).dropKeyStart?.map fun s =>
      { s.pushSkip token 1 with keyAllowed := keyAfter }

/-- Reads a colon: what began where a key may have begun was a key. -/
def lexColon? (s : Lexing) : Option Lexing :=
  match s.keyStart with
  | some k =>
    let opens := !s.inFlow && s.indent < (k.column : Int)
    let s := s.insertAt k.tokens (if opens then [.blockMapping, .key] else [.key])
    let s := if opens then { s with indent := k.column, outer := s.indent :: s.outer } else s
    some { s.pushSkip .value 1 with keyStart := none, keyAllowed := false }
  | none => lexMark? .blockMapping .value (!s.inFlow) s

/-- Notes a key start and reads a token that no key can begin right after. -/
def lexKeyed? (read : Lexing → Option Lexing) (s : Lexing) : Option Lexing :=
  s.noteKeyStart?.bind fun s => read { s with keyAllowed := false }

/-- Reads a scalar within quotes. -/
def lexQuoted? (single : Bool) (s : Lexing) : Option Lexing :=
  (quotedScalar? single s.reach).map fun (text, next) =>
    { s with tokens := .scalar text false :: s.tokens, reach := next }

/-- Reads a plain scalar. -/
def lexPlain? (s : Lexing) : Option Lexing :=
  (plainScalar? s.inFlow (s.indent + 1).toNat s.reach).map fun (text, broken, next) =>
    { s with
      tokens := .scalar text true :: s.tokens
      reach := next
      keyAllowed := s.keyAllowed || broken }

/-- Reads a block of lines. -/
def lexBlock? (literal : Bool) (s : Lexing) : Option Lexing :=
  s.dropKeyStart?.bind fun s =>
    (blockScalar? literal s.indent s.reach).map fun (text, next) =>
      { s with tokens := .scalar text false :: s.tokens, reach := next, keyAllowed := true }

/-- Whether a plain scalar can begin with the first character of a text. -/
def beginsPlain (flow : Bool) (c : Char) (rest : List Char) : Bool :=
  !(isBreak c || isSpacing c || "-?:,[]\x7b\x7d#&*!|>\x27\"%@\x60".toList.contains c) ||
    (c == '-' && !rest.head?.any isSpacing) ||
    (!flow && (c == '?' || c == ':') && !atGap rest)

/-- Ends everything that is open at the start of a line. -/
def closeAll? (s : Lexing) : Option Lexing :=
  (s.closeBlocks (-1)).dropKeyStart?.map fun s => { s with keyAllowed := false }

/-- Reads the next token at a place that is not the end of the text. -/
def lexToken? (c : Char) (rest : List Char) (s : Lexing) : Option Lexing :=
  let indicator := s.inFlow || atGap rest
  if s.reach.column == 0 && c == '%' then s.closeAll?.bind lexDirective?
  else if s.reach.atDocumentMark then
    s.closeAll?.map (·.pushSkip (if c == '-' then .documentStart else .documentEnd) 3)
  else if c == '[' then s.openFlow? .flowSequence
  else if c == '\x7b' then s.openFlow? .flowMapping
  else if c == ']' then s.closeFlow? .flowSequenceEnd
  else if c == '\x7d' then s.closeFlow? .flowMappingEnd
  else if c == ',' then
    s.dropKeyStart?.map fun s => { s.pushSkip .flowEntry 1 with keyAllowed := true }
  else if c == '-' && atGap rest then s.lexMark? .blockSequence .blockEntry true
  else if c == '?' && indicator then s.lexMark? .blockMapping .key (!s.inFlow)
  else if c == ':' && indicator then s.lexColon?
  else if c == '*' then s.lexKeyed? (lexName? .reference)
  else if c == '&' then s.lexKeyed? (lexName? .anchor)
  else if c == '!' then s.lexKeyed? lexTag?
  else if c == '|' && !s.inFlow then s.lexBlock? true
  else if c == '>' && !s.inFlow then s.lexBlock? false
  else if c == '\'' then s.lexKeyed? (lexQuoted? true)
  else if c == '"' then s.lexKeyed? (lexQuoted? false)
  else if beginsPlain s.inFlow c rest then s.lexKeyed? lexPlain?
  else none

/-- Reads all tokens. -/
def lexAll : Nat → Lexing → Option (List Token)
  | 0, _ => none
  | fuel + 1, s =>
    let s := s.skipGaps (s.reach.rest.length + 1)
    match s.dropStale? with
    | none => none
    | some s =>
      let s := s.closeBlocks s.reach.column
      match s.reach.rest with
      | [] => s.closeAll?.map fun s => s.tokens.reverse
      | c :: rest =>
        match s.lexToken? c rest with
        | none => none
        | some s => lexAll fuel s

end Lexing

/-- The tokens of a text; none for a text that has no tokens of YAML. -/
def Token.ofText? (text : String) : Option (List Token) :=
  let l := text.toList
  if l.all Lexing.isAllowed then Lexing.lexAll (2 * l.length + 2) { reach := { rest := l } }
  else none

end Wayfinder.Yaml
