import Wayfinder.Yaml.Style
import Wayfinder.Value

/-!
Writing a value as YAML, one entry or item a line. A list under a key stands in the column of the
key, and a list or table within a list begins on the line of its dash.
-/

set_option autoImplicit false
set_option relaxedAutoImplicit false

namespace Wayfinder.Yaml

/-- Spaces. -/
def pad (n : Nat) : String := String.ofList (List.replicate n ' ')

/-- A text with its last line ended. -/
def closeLine (s : String) : String :=
  if s.toList.getLast?.any isBreak then s else s ++ "\n"

/-- Parts on lines of their own, in column `n`. -/
def block (n : Nat) (parts : List String) : String :=
  String.join (parts.map fun part => pad n ++ closeLine part)

/-- The text that spells a scalar which is no text. -/
def floatText (x : Binary64) : String :=
  if x.isNotANumber then ".nan"
  else if x.isInfinite then (if x.isNegative then "-.inf" else ".inf")
  else x.text

/-- The characters that a tag shows as they are. -/
def isTagShown (c : Char) : Bool :=
  c.isAlphanum || "-_;/?:@&=+$,.~*'()[]".toList.contains c

/-- A character of a tag. -/
def tagChar (c : Char) : List Char :=
  if isTagShown c then [c]
  else
    (String.ofList [c]).toUTF8.toList.flatMap fun b =>
      ['%', upperDigit (b.toNat / 16), upperDigit (b.toNat % 16)]

/-- The text of a tag. -/
def tagText (tag : String) : String :=
  match tag.toList with
  | '!' :: c :: rest => String.ofList ('!' :: (c :: rest).flatMap tagChar)
  | l => "!<" ++ String.ofList (l.flatMap fun c => if c = '!' then ['!'] else tagChar c) ++ ">"

/-- A scalar, or an empty list or table; its further lines are indented. None for a value that
takes lines of its own. -/
def inline? (indent : Nat) : Value → Option String
  | .null => some "null"
  | .bool b => some (if b then "true" else "false")
  | .int n => some (toString n)
  | .float x => some (floatText x)
  | .string s => some (scalarText indent s)
  | .sequence items => if items.isEmpty then some "[]" else none
  | .mapping entries => if entries.isEmpty then some "\x7b\x7d" else none
  | .tagged tag value =>
    match value with
    | .string s => some (tagText tag ++ " " ++ scalarText indent s)
    | .null => some (tagText tag ++ " null")
    | .bool b => some (tagText tag ++ (if b then " true" else " false"))
    | .int n => some (tagText tag ++ " " ++ toString n)
    | .float x => some (tagText tag ++ " " ++ floatText x)
    | .sequence items => if items.isEmpty then some (tagText tag ++ " []") else none
    | .mapping entries => if entries.isEmpty then some (tagText tag ++ " \x7b\x7d") else none
    | .tagged _ _ => none

/-- A key that fits before its colon on one line. -/
def simpleKey? (key : Value) : Option String :=
  let short (s : String) (more : Nat) : Bool :=
    s.utf8ByteSize + more ≤ 128 && !s.toList.any isBreak
  match key with
  | .string s => if short s 0 then inline? 0 key else none
  | .tagged tag (.string s) => if short s tag.utf8ByteSize then inline? 0 key else none
  | _ => inline? 0 key

/-- Where a value stands: after the colon of a key, or after a mark on a line of its own. -/
inductive Spot
  | afterKey
  | afterMark (inTable : Bool)

/-- Parts in column `n`, the first of which stands on the line of the mark before it. -/
def compact (n : Nat) : List String → String
  | [] => ""
  | first :: rest => " " ++ closeLine first ++ block n rest

/-- The parts of a value after what stands before it, on the same line or on lines of their own. -/
def place (n : Nat) (spot : Spot) (tag : Option String) (parts : List String) : String :=
  match spot, tag with
  | .afterMark _, none => compact n parts
  | _, none => "\n" ++ block n parts
  | _, some tag => " " ++ tagText tag ++ "\n" ++ block n parts

/-- The column of a list that stands in something in column `n`. -/
def listColumn (n : Nat) (spot : Spot) (tag : Option String) : Nat :=
  match spot with
  | .afterKey => n
  | .afterMark inTable => if inTable && tag.isSome then n else n + 2

mutual

/-- A value after a colon or a mark, within something in column `n`. -/
def after (n : Nat) (spot : Spot) (tag : Option String) : Value → String
  | .sequence items =>
    if items.isEmpty then (match tag with | none => " []" | some t => " " ++ tagText t ++ " []")
    else
      let column := listColumn n spot tag
      place column spot tag (itemParts column items)
  | .mapping entries =>
    if entries.isEmpty then
      (match tag with | none => " \x7b\x7d" | some t => " " ++ tagText t ++ " \x7b\x7d")
    else place (n + 2) spot tag (entryParts (n + 2) entries)
  | .tagged inner value => after n spot (some (tag.getD inner)) value
  | value =>
    let text := (inline? (n + 2) value).getD ""
    match tag with
    | none => " " ++ text
    | some t => " " ++ tagText t ++ " " ++ text

/-- The items of a list in column `n`. -/
def itemParts (n : Nat) : List Value → List String
  | [] => []
  | item :: rest => ("-" ++ after n (.afterMark false) none item) :: itemParts n rest

/-- The entries of a table in column `n`. -/
def entryParts (n : Nat) : List (Value × Value) → List String
  | [] => []
  | (key, value) :: rest =>
    (match simpleKey? key with
      | some key => key ++ ":" ++ after n .afterKey none value
      | none =>
        closeLine ("?" ++ after n (.afterMark true) none key) ++ pad n ++ ":" ++
          after n (.afterMark true) none value) :: entryParts n rest

end

/-- The YAML text of a table, or of any other value on a line of its own. -/
def render : Value → String
  | .mapping (entry :: rest) => block 0 (entryParts 0 (entry :: rest))
  | .sequence (item :: rest) => block 0 (itemParts 0 (item :: rest))
  | value => closeLine ((inline? 2 value).getD "")

end Wayfinder.Yaml
