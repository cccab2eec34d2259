import Wayfinder.Browse.Screen

/-!
The cursor over a listing, moved by keys. It passes over rows that only say that there is nothing.
-/

set_option autoImplicit false
set_option relaxedAutoImplicit false

namespace Wayfinder.Browse

/-- A key without its modifiers. -/
inductive KeyCode
  | up
  | down
  | left
  | right
  | enter
  | escape
  | backspace
  | character (c : Char)
  /-- Any other key. -/
  | other
  deriving DecidableEq, Repr

/-- A key. -/
structure Key where
  code : KeyCode
  control : Bool := false
  deriving DecidableEq, Repr

namespace Cursor

/-- Whether a row can be chosen. -/
def isSelectable (item : Item) : Bool := !item.isPlaceholder

/-- Where the cursor stands on a new listing: on the first child, or else on the first row that can
be chosen. -/
def start (items : List Item) : Nat :=
  ((items.findIdx? fun item => !item.isUp && isSelectable item).or
    (items.findIdx? isSelectable)).getD 0

/-- A way through the rows. -/
inductive Way
  | up
  | down
  deriving DecidableEq, Repr

/-- The position next to a position among so many rows; none at the end of the way. -/
def next? (count position : Nat) : Way → Option Nat
  | .up => if 0 < position then some (position - 1) else none
  | .down => if position + 1 < count then some (position + 1) else none

/-- How far it is at most from a position to the end of the way. -/
def distance (count position : Nat) : Way → Nat
  | .up => position
  | .down => count - position

theorem distance_lt_of_next? {count position next : Nat} {way : Way}
    (h : next? count position way = some next) :
    distance count next way < distance count position way := by
  cases way <;> simp only [next?, distance] at h ⊢ <;> split at h <;> cases h <;> omega

/-- Looks at one row after another until one can be chosen, and answers its position, or that there
is none. There is no answer at all where a row is looked at that is not in the list. -/
def seek? (items : List Item) (way : Way) (position : Nat) : Option (Option Nat) :=
  match _hnext : next? items.length position way with
  | none => some none
  | some next =>
    match items[next]? with
    | none => none
    | some item => if isSelectable item then some (some next) else seek? items way next
termination_by distance items.length position way
decreasing_by exact distance_lt_of_next? _hnext

/-- The position after a step on a way: that of the row found, or else the same. -/
def step? (items : List Item) (way : Way) (position : Nat) : Option Nat :=
  (seek? items way position).map fun found => found.getD position

/-- What a key means. -/
inductive Meaning
  | move (way : Way)
  /-- Entering the row under the cursor. -/
  | enter
  | choose (selection : Selection)
  | nothing
  deriving DecidableEq, Repr

/-- What a key means on a screen. -/
def meaning (key : Key) (canAccept : Bool) : Meaning :=
  match key.code with
  | .up => .move .up
  | .down => .move .down
  | .right => .enter
  | .enter => .enter
  | .left => .choose .back
  | .backspace => .choose .back
  | .escape => .choose .quit
  | .character c =>
    if c = 'c' && key.control then .choose .quit
    else if c = 'q' then .choose .quit
    else if c = 'k' then .move .up
    else if c = 'j' then .move .down
    else if c = 'l' then .enter
    else if c = 'h' then .choose .back
    else if c = 's' && canAccept then .choose .accept
    else .nothing
  | .other => .nothing

/-- What becomes of the cursor with a key, and what the operator has chosen with it; none where a row
is looked at that is not in the list. -/
def press? (key : Key) (items : List Item) (canAccept : Bool) (position : Nat) :
    Option (Nat × Option Selection) :=
  match meaning key canAccept with
  | .move way => (step? items way position).map fun next => (next, none)
  | .enter =>
    match items[position]? with
    | none => some (position, none)
    | some item => some (position, if isSelectable item then some (.enter position) else none)
  | .choose selection => some (position, some selection)
  | .nothing => some (position, none)

/-- What becomes of a cursor that always stands within reach of its list. -/
def press (key : Key) (items : List Item) (canAccept : Bool) (position : Nat) :
    Nat × Option Selection :=
  (press? key items canAccept position).getD (position, none)

end Cursor

end Wayfinder.Browse
