import Wayfinder.NameMap
import Wayfinder.Number.Binary64

/-!
Values of no fixed shape, for the keys of a kubeconfig that nothing here gives a meaning to. Main
statements: `Value.same`, the equality of values in which the order of a mapping's entries does not
count, is reflexive (`Value.same_refl`), and `Value.equal` decides whether two values are one
(`Value.equal_iff`).
-/

set_option autoImplicit false
set_option relaxedAutoImplicit false

namespace Wayfinder

/-- A value of any shape. -/
inductive Value
  | null
  | bool (b : Bool)
  | int (n : Int)
  | float (x : Binary64)
  | string (s : String)
  | sequence (items : List Value)
  | mapping (entries : List (Value × Value))
  | tagged (tag : String) (value : Value)
  deriving Repr

namespace Value

mutual

/-- Whether two values are equal: numbers as numbers of one kind, mappings whatever the order of
their entries. -/
def same : Value → Value → Bool
  | .null, .null => true
  | .bool a, .bool b => a == b
  | .int a, .int b => a == b
  | .float a, .float b => a.same b
  | .string a, .string b => a == b
  | .sequence a, .sequence b => sameItems a b
  | .mapping a, .mapping b => a.length == b.length && sameEntries a b
  | .tagged s a, .tagged t b => s == t && same a b
  | _, _ => false

/-- Whether two lists of values are equal item by item. -/
def sameItems : List Value → List Value → Bool
  | [], [] => true
  | a :: l, b :: r => same a b && sameItems l r
  | _, _ => false

/-- Whether every entry of the first list stands in the second. -/
def sameEntries : List (Value × Value) → List (Value × Value) → Bool
  | [], _ => true
  | (key, value) :: l, r => r.any (fun e => same key e.1 && same value e.2) && sameEntries l r

end

end Value

theorem Binary64.same_refl (x : Binary64) : x.same x = true := by
  unfold Binary64.same
  cases x.isNotANumber <;> simp

namespace Value

theorem sameEntries_of_forall {l r : List (Value × Value)}
    (h : ∀ e ∈ l, r.any (fun f => same e.1 f.1 && same e.2 f.2) = true) :
    sameEntries l r = true := by
  induction l with
  | nil => simp [sameEntries]
  | cons e l ih =>
    obtain ⟨key, value⟩ := e
    rw [sameEntries, h (key, value) List.mem_cons_self]
    exact ih fun e he => h e (List.mem_cons_of_mem _ he)

mutual

theorem same_refl : ∀ v : Value, same v v = true
  | .null => by simp [same]
  | .bool _ => by simp [same]
  | .int _ => by simp [same]
  | .float x => by simp [same, x.same_refl]
  | .string _ => by simp [same]
  | .sequence items => by rw [same]; exact sameItems_refl items
  | .mapping entries => by
    rw [same]
    have h := same_refl_entries entries
    have : sameEntries entries entries = true := sameEntries_of_forall fun e he =>
      List.any_eq_true.2 ⟨e, he, by rw [(h e he).1, (h e he).2]; rfl⟩
    simp [this]
  | .tagged _ value => by simp [same, same_refl value]

theorem sameItems_refl : ∀ items : List Value, sameItems items items = true
  | [] => by simp [sameItems]
  | item :: rest => by simp [sameItems, same_refl item, sameItems_refl rest]

theorem same_refl_entries : ∀ entries : List (Value × Value),
    ∀ e ∈ entries, same e.1 e.1 = true ∧ same e.2 e.2 = true
  | [], _, h => absurd h List.not_mem_nil
  | (key, value) :: rest, e, h => by
    rcases List.mem_cons.1 h with h | h
    · subst h
      exact ⟨same_refl key, same_refl value⟩
    · exact same_refl_entries rest e h

end

mutual

/-- Whether two values are one and the same. -/
def equal : Value → Value → Bool
  | .null, .null => true
  | .bool a, .bool b => a == b
  | .int a, .int b => a == b
  | .float a, .float b => decide (a = b)
  | .string a, .string b => a == b
  | .sequence a, .sequence b => equalItems a b
  | .mapping a, .mapping b => equalEntries a b
  | .tagged s a, .tagged t b => s == t && equal a b
  | _, _ => false

/-- Whether two lists of values are one and the same. -/
def equalItems : List Value → List Value → Bool
  | [], [] => true
  | a :: l, b :: r => equal a b && equalItems l r
  | _, _ => false

/-- Whether two lists of entries are one and the same. -/
def equalEntries : List (Value × Value) → List (Value × Value) → Bool
  | [], [] => true
  | (key, value) :: l, (key', value') :: r =>
    equal key key' && equal value value' && equalEntries l r
  | _, _ => false

end

mutual

theorem equal_iff : ∀ {a b : Value}, equal a b = true ↔ a = b
  | .null, b => by cases b <;> simp [equal]
  | .bool a, b => by cases b <;> simp [equal]
  | .int a, b => by cases b <;> simp [equal]
  | .float a, b => by cases b <;> simp [equal]
  | .string a, b => by cases b <;> simp [equal]
  | .sequence items, b => by cases b <;> simp [equal, equalItems_iff]
  | .mapping entries, b => by cases b <;> simp [equal, equalEntries_iff]
  | .tagged tag value, b => by cases b <;> simp [equal, equal_iff]

theorem equalItems_iff : ∀ {l r : List Value}, equalItems l r = true ↔ l = r
  | [], r => by cases r <;> simp [equalItems]
  | item :: rest, r => by cases r <;> simp [equalItems, equal_iff, equalItems_iff]

theorem equalEntries_iff : ∀ {l r : List (Value × Value)}, equalEntries l r = true ↔ l = r
  | [], r => by cases r <;> simp [equalEntries]
  | (key, value) :: rest, r => by
    cases r <;> simp [equalEntries, equal_iff, equalEntries_iff, Prod.ext_iff]

end

instance : DecidableEq Value := fun _ _ => decidable_of_iff _ equal_iff

end Value

namespace NameMap

variable {α : Type}

/-- Whether two lists of entries are equal, entry by entry, by a given equality of values. -/
def sameEntries (same : α → α → Bool) : List (String × α) → List (String × α) → Bool
  | [], [] => true
  | a :: l, b :: r => a.1 == b.1 && same a.2 b.2 && sameEntries same l r
  | _, _ => false

/-- Whether two maps have equal values under the same names, by a given equality of values. -/
def sameBy (same : α → α → Bool) (a b : NameMap α) : Bool := sameEntries same a.entries b.entries

theorem sameBy_refl {same : α → α → Bool} (h : ∀ v, same v v = true) (m : NameMap α) :
    m.sameBy same m = true := by
  unfold sameBy
  induction m.entries with
  | nil => simp [sameEntries]
  | cons e l ih => simp [sameEntries, h, ih]

end NameMap

end Wayfinder
