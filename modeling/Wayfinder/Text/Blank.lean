/-!
White space as the standard of characters defines it, and texts without it at their ends.
-/

set_option autoImplicit false
set_option relaxedAutoImplicit false

namespace Wayfinder.Text

/-- The characters with the property of white space. -/
def isBlank (c : Char) : Bool :=
  let n := c.toNat
  (9 ≤ n && n ≤ 13) || n == 0x20 || n == 0x85 || n == 0xa0 || n == 0x1680 ||
    (0x2000 ≤ n && n ≤ 0x200a) || n == 0x2028 || n == 0x2029 || n == 0x202f || n == 0x205f ||
    n == 0x3000

/-- Drops what `p` holds of from the end of a list. -/
def dropEndWhile {α : Type} (p : α → Bool) (l : List α) : List α :=
  (l.reverse.dropWhile p).reverse

/-- Drops what `p` holds of from both ends of a list. -/
def stripWhile {α : Type} (p : α → Bool) (l : List α) : List α :=
  dropEndWhile p (l.dropWhile p)

theorem dropWhile_eq_self_iff_head? {α : Type} {p : α → Bool} {l : List α} :
    l.dropWhile p = l ↔ ∀ a, l.head? = some a → p a = false := by
  cases l with
  | nil => simp
  | cons a rest =>
    have hle := (List.dropWhile_sublist (l := rest) p).length_le
    rw [List.dropWhile_cons]
    constructor
    · intro h other hother
      obtain rfl := Option.some.inj hother
      rw [← Bool.not_eq_true]
      intro ha
      rw [if_pos ha] at h
      rw [h, List.length_cons] at hle
      omega
    · intro h
      rw [h a rfl, if_neg Bool.false_ne_true]

theorem dropEndWhile_eq_self_iff {α : Type} {p : α → Bool} {l : List α} :
    dropEndWhile p l = l ↔ ∀ a, l.getLast? = some a → p a = false := by
  rw [dropEndWhile, List.reverse_eq_iff, dropWhile_eq_self_iff_head?, List.head?_reverse]

/-- The text without white space at either end. -/
def trim (s : String) : String :=
  String.ofList (stripWhile isBlank s.toList)

end Wayfinder.Text
