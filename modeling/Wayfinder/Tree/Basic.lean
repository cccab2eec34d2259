import Wayfinder.Value
import Wayfinder.Json.Basic

/-!
The nested text that a kubeconfig is read from, before anything is made of it. What an unquoted
scalar stands for depends on who asks for it, so a tree keeps its text. A scalar of known kind
comes from JSON, or from a value.
-/

set_option autoImplicit false
set_option relaxedAutoImplicit false

namespace Wayfinder

/-- A scalar: a text without or within quotes, or a scalar of known kind. -/
inductive Leaf
  | plain (text : String)
  | quoted (text : String)
  | null
  | bool (b : Bool)
  | int (n : Int)
  | float (x : Binary64)
  deriving DecidableEq, Repr

/-- Nested lists and tables of scalars, each with the tag it carries. -/
inductive Tree
  | leaf (tag : Option String) (content : Leaf)
  | list (tag : Option String) (items : List Tree)
  | table (tag : Option String) (entries : List (Tree × Tree))
  /-- What is nested too deeply, or repeated too often, to be read. -/
  | unreadable
  deriving Repr

namespace Tree

/-- The same tree under a tag. -/
def withTag (tag : String) : Tree → Tree
  | .leaf _ content => .leaf (some tag) content
  | .list _ items => .list (some tag) items
  | .table _ entries => .table (some tag) entries
  | .unreadable => .unreadable

mutual

/-- The tree of a JSON value. -/
def ofJson : Json → Tree
  | .null => .leaf none .null
  | .bool b => .leaf none (.bool b)
  | .int n => .leaf none (.int n)
  | .float x => .leaf none (.float x)
  | .string s => .leaf none (.quoted s)
  | .array items => .list none (ofJsonItems items)
  | .object members => .table none (ofJsonMembers members)

/-- The trees of the items of an array. -/
def ofJsonItems : List Json → List Tree
  | [] => []
  | item :: rest => ofJson item :: ofJsonItems rest

/-- The trees of the members of an object. -/
def ofJsonMembers : List (String × Json) → List (Tree × Tree)
  | [] => []
  | (name, value) :: rest => (.leaf none (.quoted name), ofJson value) :: ofJsonMembers rest

end

mutual

/-- The tree that writing a value produces. -/
def ofValue : Value → Tree
  | .null => .leaf none .null
  | .bool b => .leaf none (.bool b)
  | .int n => .leaf none (.int n)
  | .float x => .leaf none (.float x)
  | .string s => .leaf none (.quoted s)
  | .sequence items => .list none (ofItems items)
  | .mapping entries => .table none (ofEntries entries)
  | .tagged tag value => (ofValue value).withTag tag

/-- The trees of the items of a sequence. -/
def ofItems : List Value → List Tree
  | [] => []
  | item :: rest => ofValue item :: ofItems rest

/-- The trees of the entries of a mapping. -/
def ofEntries : List (Value × Value) → List (Tree × Tree)
  | [] => []
  | (key, value) :: rest => (ofValue key, ofValue value) :: ofEntries rest

end

end Tree

end Wayfinder
