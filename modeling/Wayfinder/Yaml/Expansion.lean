import Wayfinder.Yaml.Node
import Wayfinder.Tree.Basic

/-!
References put in place: a tree in which each reference stands for what its anchor marks. A tree
that nests too deeply, or has too many references in it, is cut off there.
-/

set_option autoImplicit false
set_option relaxedAutoImplicit false

namespace Wayfinder.Yaml

/-- The anchors met so far. An anchor's number is the count of names before it, so an anchor of a
name used before may share its number with the next new name; of two nodes with one number the
one that begins later counts. -/
structure Anchors where
  /-- The number that each name stands for at the moment, each name once. -/
  numbers : List (String × Nat) := []
  /-- For each number, the place of its node among the anchored ones; the latest first. -/
  places : List (Nat × Nat) := []
  /-- How many anchored nodes have begun. -/
  begun : Nat := 0
  /-- The anchored nodes by their places. -/
  nodes : List (Nat × Node Nat) := []

namespace Anchors

/-- Notes that an anchored node begins; answers its place. -/
def start (name : String) (a : Anchors) : Nat × Anchors :=
  let number := a.numbers.length
  (a.begun, { a with
    numbers := (name, number) :: a.numbers.filter (·.1 != name)
    places := (number, a.begun) :: a.places
    begun := a.begun + 1 })

/-- Notes an anchored node. -/
def finish (place : Nat) (node : Node Nat) (a : Anchors) : Anchors :=
  { a with nodes := (place, node) :: a.nodes }

/-- The node of a number. -/
def node? (a : Anchors) (number : Nat) : Option (Node Nat) :=
  (a.places.lookup number).bind fun place => a.nodes.lookup place

end Anchors

namespace Node

/-- Runs `build` between noting the start of an anchored node and noting the node. -/
def anchored (mark : Mark) (build : Anchors → Option (Node Nat × Anchors)) (a : Anchors) :
    Option (Node Nat × Anchors) :=
  match mark.anchor with
  | none => build a
  | some name =>
    let (place, a) := a.start name
    (build a).map fun (node, a) => (node, a.finish place node)

mutual

/-- Replaces the names in references by numbers; none for a name without an anchor before it. -/
def link? : Named → Anchors → Option (Node Nat × Anchors)
  | .reference name, a => (a.numbers.lookup name).map fun number => (.reference number, a)
  | .scalar mark text isPlain, a => anchored mark (fun a => some (.scalar mark text isPlain, a)) a
  | .list mark items, a =>
    anchored mark (fun a => (linkItems? items a).map fun (items, a) => (.list mark items, a)) a
  | .table mark entries, a =>
    anchored mark
      (fun a => (linkEntries? entries a).map fun (entries, a) => (.table mark entries, a)) a

/-- Replaces the names in the items of a list. -/
def linkItems? : List Named → Anchors → Option (List (Node Nat) × Anchors)
  | [], a => some ([], a)
  | item :: rest, a =>
    match link? item a with
    | none => none
    | some (item, a) => (linkItems? rest a).map fun (rest, a) => (item :: rest, a)

/-- Replaces the names in the entries of a table. -/
def linkEntries? : List (Named × Named) → Anchors → Option (List (Node Nat × Node Nat) × Anchors)
  | [], a => some ([], a)
  | (key, value) :: rest, a =>
    match link? key a with
    | none => none
    | some (key, a) =>
      match link? value a with
      | none => none
      | some (value, a) => (linkEntries? rest a).map fun (rest, a) => ((key, value) :: rest, a)

end

mutual

/-- How many parts a node has: one for a scalar or a reference, and two around others. -/
def parts : Node Nat → Nat
  | .reference _ => 1
  | .scalar _ _ _ => 1
  | .list _ items => 2 + partsOfItems items
  | .table _ entries => 2 + partsOfEntries entries

/-- The parts of the items of a list. -/
def partsOfItems : List (Node Nat) → Nat
  | [] => 0
  | item :: rest => parts item + partsOfItems rest

/-- The parts of the entries of a table. -/
def partsOfEntries : List (Node Nat × Node Nat) → Nat
  | [] => 0
  | (key, value) :: rest => parts key + parts value + partsOfEntries rest

end

/-- The tree of a node with `depth` levels left for lists and tables. The state is how many
references may still be followed. -/
def expand (a : Anchors) : Nat → Nat → Node Nat → StateM Nat Tree
  | 0, _, _ => pure .unreadable
  | _ + 1, _, .scalar mark text isPlain =>
    pure (.leaf mark.tag (if isPlain then .plain text else .quoted text))
  | fuel + 1, depth, .reference number => do
    match ← get, a.node? number with
    | left + 1, some node => do
      set left
      expand a fuel depth node
    | _, _ => pure .unreadable
  | _ + 1, 0, .list _ _ => pure .unreadable
  | fuel + 1, depth + 1, .list mark items => do
    let items ← items.mapM (expand a fuel depth)
    pure (.list mark.tag items)
  | _ + 1, 0, .table _ _ => pure .unreadable
  | fuel + 1, depth + 1, .table mark entries => do
    let entries ← entries.mapM fun (key, value) => do
      let key ← expand a fuel depth key
      let value ← expand a fuel depth value
      pure (key, value)
    pure (.table mark.tag entries)

/-- How many levels of lists and tables are read. -/
def depthLimit : Nat := 128

/-- The tree of a node whose references all have anchors. -/
def toTree? (root : Named) : Option Tree :=
  (link? root {}).map fun (root, anchors) =>
    (expand anchors (2 * depthLimit + 3) depthLimit root |>.run (100 * parts root)).1

end Node

end Wayfinder.Yaml

namespace Wayfinder

/-- The tree of a YAML text; none for a text that is not one document. -/
def Tree.ofYaml? (text : String) : Option Tree := do
  let tokens ← Yaml.Token.ofText? text
  let root ← Yaml.Node.ofTokens? tokens
  root.toTree?

end Wayfinder
