/-!
Texts cut at a separating character. Main statement: putting the separator back between the pieces
gives the text again (`join_pieces`).
-/

set_option autoImplicit false
set_option relaxedAutoImplicit false

namespace Wayfinder.Text

/-- The pieces between the occurrences of `sep`, empty ones included. -/
def pieces (sep : Char) : List Char → List (List Char)
  | [] => [[]]
  | c :: rest =>
    if c = sep then [] :: pieces sep rest
    else
      match pieces sep rest with
      | [] => [[c]]
      | piece :: more => (c :: piece) :: more

/-- The pieces with `sep` between them. -/
def join (sep : Char) : List (List Char) → List Char
  | [] => []
  | [piece] => piece
  | piece :: more => piece ++ sep :: join sep more

theorem pieces_ne_nil (sep : Char) (l : List Char) : pieces sep l ≠ [] := by
  cases l with
  | nil => simp [pieces]
  | cons c rest =>
    rw [pieces]
    split
    · simp
    · split <;> simp

theorem join_pieces (sep : Char) (l : List Char) : join sep (pieces sep l) = l := by
  induction l with
  | nil => rfl
  | cons c rest ih =>
    rw [pieces]
    split
    · next heq =>
      subst heq
      have h := pieces_ne_nil c rest
      rw [join]
      · rw [ih]; rfl
      · exact h
    · cases h : pieces sep rest with
      | nil => exact absurd h (pieces_ne_nil sep rest)
      | cons piece more =>
        rw [h] at ih
        cases more with
        | nil => simpa [join] using ih
        | cons next more => simpa [join] using ih

theorem pieces_append (sep : Char) (l r : List Char) :
    pieces sep (l ++ sep :: r) = pieces sep l ++ pieces sep r := by
  induction l with
  | nil => simp [pieces]
  | cons c rest ih =>
    rw [List.cons_append, pieces, pieces, ih]
    split
    · simp
    · cases h : pieces sep rest with
      | nil => exact absurd h (pieces_ne_nil sep rest)
      | cons piece more => simp

theorem pieces_of_not_mem {sep : Char} {l : List Char} (h : sep ∉ l) : pieces sep l = [l] := by
  induction l with
  | nil => rfl
  | cons c rest ih =>
    have hc : ¬ c = sep := fun he => h (he ▸ List.mem_cons_self)
    rw [pieces, if_neg hc, ih fun hm => h (List.mem_cons_of_mem _ hm)]

/-- The pieces of a text, as texts. -/
def split (s : String) (sep : Char) : List String :=
  (pieces sep s.toList).map String.ofList

/-- Whether the text starts with `start`. -/
def startsWith (s start : String) : Bool := start.toList.isPrefixOf s.toList

/-- The text after `start`, if it starts so. -/
def after? (s start : String) : Option String :=
  if startsWith s start then some (String.ofList (s.toList.drop start.toList.length)) else none

end Wayfinder.Text
