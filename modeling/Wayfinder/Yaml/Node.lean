import Wayfinder.Yaml.Token

/-!
The nodes of a YAML text: scalars, lists and tables, with their anchors and tags, and references
to anchors. A text is at most one document.
-/

set_option autoImplicit false
set_option relaxedAutoImplicit false

namespace Wayfinder.Yaml

/-- What stands before a node. -/
structure Mark where
  anchor : Option String := none
  tag : Option String := none
  deriving DecidableEq, Repr

/-- A node. References are given by `ρ`. -/
inductive Node (ρ : Type)
  | reference (target : ρ)
  | scalar (mark : Mark) (text : String) (isPlain : Bool)
  | list (mark : Mark) (items : List (Node ρ))
  | table (mark : Mark) (entries : List (Node ρ × Node ρ))

namespace Node

/-- A node with references by name. -/
abbrev Named : Type := Node String

/-- The node that stands where nothing is written. -/
def blank : Named := .scalar {} "" true

/-- What the handles of tags stand for. -/
abbrev Handles : Type := List (String × String)

/-- The handles that need no directive. -/
def coreHandles : Handles := [("!", "!"), ("!!", "tag:yaml.org,2002:")]

/-- The full text of a tag. -/
def tagOf? (handles : Handles) (handle suffix : String) : Option String :=
  if handle.isEmpty then some suffix
  else (handles.lookup handle).map (· ++ suffix)

/-- Reads an anchor and a tag, in either order. -/
def mark? (handles : Handles) : List Token → Option (Mark × List Token)
  | .anchor name :: .tag handle suffix :: rest =>
    (tagOf? handles handle suffix).map fun tag => ({ anchor := name, tag }, rest)
  | .anchor name :: rest => some ({ anchor := name }, rest)
  | .tag handle suffix :: .anchor name :: rest =>
    (tagOf? handles handle suffix).map fun tag => ({ anchor := name, tag }, rest)
  | .tag handle suffix :: rest => (tagOf? handles handle suffix).map fun tag => ({ tag }, rest)
  | rest => some ({}, rest)

/-- What is next in a block that ends the place of a node. -/
def endsBlockNode : List Token → Bool
  | .key :: _ => true
  | .value :: _ => true
  | .blockEnd :: _ => true
  | _ => false

/-- Whether no item follows a dash. -/
def endsBlockItem : List Token → Bool
  | .blockEntry :: _ => true
  | .blockEnd :: _ => true
  | _ => false

/-- Whether no key follows within the brackets of a table. -/
def endsFlowKey : List Token → Bool
  | .value :: _ => true
  | .flowEntry :: _ => true
  | .flowMappingEnd :: _ => true
  | _ => false

/-- Whether no value follows within the brackets of a table. -/
def endsFlowValue : List Token → Bool
  | .flowEntry :: _ => true
  | .flowMappingEnd :: _ => true
  | _ => false

/-- Whether no key follows within the brackets of a list. -/
def endsPairKey : List Token → Bool
  | .value :: _ => true
  | .flowEntry :: _ => true
  | .flowSequenceEnd :: _ => true
  | _ => false

/-- Whether no value follows within the brackets of a list. -/
def endsPairValue : List Token → Bool
  | .flowEntry :: _ => true
  | .flowSequenceEnd :: _ => true
  | _ => false

mutual

/-- Reads a node. Blocks are read where `block` holds, and dashes without a block of their own
where `dashes` holds. -/
def node? (handles : Handles) : Nat → Bool → Bool → List Token → Option (Named × List Token)
  | 0, _, _, _ => none
  | _ + 1, _, _, .reference name :: rest => some (.reference name, rest)
  | fuel + 1, block, dashes, tokens =>
    match mark? handles tokens with
    | none => none
    | some (mark, tokens) =>
      let otherwise : Option (Named × List Token) :=
        if mark = {} then none else some (.scalar mark "" true, tokens)
      match tokens with
      | .scalar text isPlain :: rest =>
        let mark := if mark.tag = some "!" then { mark with tag := none } else mark
        some (.scalar mark text isPlain, rest)
      | .flowSequence :: rest =>
        (flowItems? handles fuel true rest).map fun (items, rest) => (.list mark items, rest)
      | .flowMapping :: rest =>
        (flowEntries? handles fuel true rest).map fun (entries, rest) => (.table mark entries, rest)
      | .blockEntry :: _ =>
        if dashes then
          (dashItems? handles fuel tokens).map fun (items, rest) => (.list mark items, rest)
        else otherwise
      | .blockSequence :: rest =>
        if block then
          (blockItems? handles fuel rest).map fun (items, rest) => (.list mark items, rest)
        else otherwise
      | .blockMapping :: rest =>
        if block then
          (blockEntries? handles fuel rest).map fun (entries, rest) => (.table mark entries, rest)
        else otherwise
      | _ => otherwise

/-- Reads the items of a block of dashes. -/
def blockItems? (handles : Handles) : Nat → List Token → Option (List Named × List Token)
  | 0, _ => none
  | fuel + 1, .blockEntry :: rest =>
    match
      (if endsBlockItem rest then some (blank, rest)
      else node? handles fuel true false rest) with
    | none => none
    | some (item, rest) =>
      (blockItems? handles fuel rest).map fun (items, rest) => (item :: items, rest)
  | _ + 1, .blockEnd :: rest => some ([], rest)
  | _ + 1, _ => none

/-- Reads the items after dashes that stand in the column of the keys around them. -/
def dashItems? (handles : Handles) : Nat → List Token → Option (List Named × List Token)
  | 0, _ => none
  | fuel + 1, .blockEntry :: rest =>
    match (if endsBlockItem rest || endsBlockNode rest then some (blank, rest)
      else node? handles fuel true false rest) with
    | none => none
    | some (item, rest) =>
      (dashItems? handles fuel rest).map fun (items, rest) => (item :: items, rest)
  | _ + 1, rest => some ([], rest)

/-- Reads the entries of a block of keys. -/
def blockEntries? (handles : Handles) :
    Nat → List Token → Option (List (Named × Named) × List Token)
  | 0, _ => none
  | fuel + 1, .key :: rest =>
    match
      (if endsBlockNode rest then some (blank, rest)
      else node? handles fuel true true rest) with
    | none => none
    | some (key, rest) =>
      match (match rest with
        | .value :: rest =>
          if endsBlockNode rest then some (blank, rest) else node? handles fuel true true rest
        | _ => some (blank, rest)) with
      | none => none
      | some (value, rest) =>
        (blockEntries? handles fuel rest).map fun (entries, rest) => ((key, value) :: entries, rest)
  | _ + 1, .blockEnd :: rest => some ([], rest)
  | _ + 1, _ => none

/-- Reads the items of a list in brackets. A key among them makes a table of one entry. -/
def flowItems? (handles : Handles) : Nat → Bool → List Token → Option (List Named × List Token)
  | 0, _, _ => none
  | _ + 1, _, .flowSequenceEnd :: rest => some ([], rest)
  | fuel + 1, first, tokens =>
    match (match first, tokens with
      | true, _ => some tokens
      | false, .flowEntry :: rest => some rest
      | false, _ => none) with
    | none => none
    | some (.flowSequenceEnd :: rest) => some ([], rest)
    | some (.key :: rest) =>
      match (if endsPairKey rest then some (blank, rest.drop 1)
        else node? handles fuel false false rest) with
      | none => none
      | some (key, rest) =>
        match (match rest with
          | .value :: rest =>
            if endsPairValue rest then some (blank, rest) else node? handles fuel false false rest
          | _ => some (blank, rest)) with
        | none => none
        | some (value, rest) =>
          (flowItems? handles fuel false rest).map fun (items, rest) =>
            (.table {} [(key, value)] :: items, rest)
    | some tokens =>
      match node? handles fuel false false tokens with
      | none => none
      | some (item, rest) =>
        (flowItems? handles fuel false rest).map fun (items, rest) => (item :: items, rest)

/-- Reads the entries of a table in brackets. -/
def flowEntries? (handles : Handles) :
    Nat → Bool → List Token → Option (List (Named × Named) × List Token)
  | 0, _, _ => none
  | _ + 1, _, .flowMappingEnd :: rest => some ([], rest)
  | fuel + 1, first, tokens =>
    match (match first, tokens with
      | true, _ => some tokens
      | false, .flowEntry :: rest => some rest
      | false, _ => none) with
    | none => none
    | some (.flowMappingEnd :: rest) => some ([], rest)
    | some (.key :: rest) =>
      match (if endsFlowKey rest then some (blank, rest)
        else node? handles fuel false false rest) with
      | none => none
      | some (key, rest) =>
        match (match rest with
          | .value :: rest =>
            if endsFlowValue rest then some (blank, rest) else node? handles fuel false false rest
          | _ => some (blank, rest)) with
        | none => none
        | some (value, rest) =>
          (flowEntries? handles fuel false rest).map fun (entries, rest) =>
            ((key, value) :: entries, rest)
    | some tokens =>
      match node? handles fuel false false tokens with
      | none => none
      | some (key, rest) =>
        (flowEntries? handles fuel false rest).map fun (entries, rest) =>
          ((key, blank) :: entries, rest)

end

/-- Reads the directives before a document: the version, at most once and one that is known, and
the handles of tags, each at most once. -/
def directives? : Bool → Handles → List Token → Option (Handles × List Token)
  | versioned, handles, .version major minor :: rest =>
    if versioned || major ≠ 1 || (minor ≠ 1 && minor ≠ 2) then none
    else directives? true handles rest
  | versioned, handles, .tagShorthand handle start :: rest =>
    if (handles.lookup handle).isSome then none
    else directives? versioned (handles ++ [(handle, start)]) rest
  | _, handles, rest => some (handles ++ coreHandles, rest)

/-- Whether a document has no content. -/
def endsDocument : List Token → Bool
  | [] => true
  | .version _ _ :: _ => true
  | .tagShorthand _ _ :: _ => true
  | .documentStart :: _ => true
  | .documentEnd :: _ => true
  | _ => false

/-- Whether a document opens with directives or a mark. -/
def opensDocument : List Token → Bool
  | .version _ _ :: _ => true
  | .tagShorthand _ _ :: _ => true
  | .documentStart :: _ => true
  | _ => false

/-- The root of the one document that tokens spell; tokens that spell none have a blank root. -/
def ofTokens? (tokens : List Token) : Option Named :=
  let fuel := 2 * tokens.length + 2
  let root? : Option (Named × List Token) :=
    if tokens.isEmpty then some (blank, [])
    else if opensDocument tokens then
      match directives? false [] tokens with
      | some (handles, .documentStart :: rest) =>
        if endsDocument rest then some (blank, rest) else node? handles fuel true false rest
      | _ => none
    else node? coreHandles fuel true false tokens
  match root? with
  | none => none
  | some (root, rest) =>
    if (rest.dropWhile (· == .documentEnd)).isEmpty then some root else none

end Node

end Wayfinder.Yaml
