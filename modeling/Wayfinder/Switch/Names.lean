import Wayfinder.NameMap

/-!
Names for entries that have to make way. Main statements: the number of a free name is the least
that is free (`freeNumber_free`, `taken_of_lt_freeNumber`).
-/

set_option autoImplicit false
set_option relaxedAutoImplicit false

namespace Wayfinder.Switch

/-- What marks the names of the entries that hold the previous target. -/
def previousMark : String := "-previous"

/-- The name of the entries that hold the previous target, next to `preferred` for the current. -/
def previousName (preferred : String) : String := preferred ++ previousMark

/-- The first number from `n` on that is not taken, among the next `tries` numbers; the number
after those when all are taken. -/
def freeNumber (taken : Nat → Bool) : Nat → Nat → Nat
  | 0, n => n
  | tries + 1, n => if taken n then freeNumber taken tries (n + 1) else n

/-- The first of the names `start` followed by 1, 2, … that is not among `names`. Of one more
number than there are names, one leads to a free name. -/
def freeName (start : String) (names : List String) : String :=
  start ++ toString
    (freeNumber (fun n => names.contains (start ++ toString n)) names.length 1)

theorem le_freeNumber (taken : Nat → Bool) (tries n : Nat) : n ≤ freeNumber taken tries n := by
  induction tries generalizing n with
  | zero => exact Nat.le_refl n
  | succ tries ih =>
    rw [freeNumber]
    split
    · exact Nat.le_of_succ_le (ih (n + 1))
    · exact Nat.le_refl n

theorem freeNumber_le (taken : Nat → Bool) (tries n : Nat) :
    freeNumber taken tries n ≤ n + tries := by
  induction tries generalizing n with
  | zero => exact Nat.le_refl n
  | succ tries ih =>
    rw [freeNumber]
    split
    · have := ih (n + 1)
      omega
    · omega

theorem taken_of_lt_freeNumber {taken : Nat → Bool} {tries n k : Nat} (hn : n ≤ k)
    (hk : k < freeNumber taken tries n) : taken k = true := by
  induction tries generalizing n with
  | zero => exact absurd hk (Nat.not_lt.2 hn)
  | succ tries ih =>
    rw [freeNumber] at hk
    split at hk
    · next h =>
      rcases Nat.eq_or_lt_of_le hn with rfl | hlt
      · exact h
      · exact ih hlt hk
    · exact absurd hk (Nat.not_lt.2 hn)

theorem freeNumber_free {taken : Nat → Bool} {tries n : Nat}
    (h : freeNumber taken tries n < n + tries) : taken (freeNumber taken tries n) = false := by
  induction tries generalizing n with
  | zero => exact absurd h (Nat.lt_irrefl n)
  | succ tries ih =>
    rw [freeNumber] at h ⊢
    split
    · next ht =>
      rw [if_pos ht] at h
      exact ih (by omega)
    · next ht => simpa using ht

end Wayfinder.Switch

namespace Wayfinder.NameMap

variable {α : Type}

/-- Moves the entry of a name to the first free name that begins with it; answers that name. -/
def moveAside? (m : NameMap α) (name : String) : Option (NameMap α × String) :=
  match m.get? name with
  | none => none
  | some value =>
    let others := m.erase name
    let free := Switch.freeName name others.names
    some (others.insert free value, free)

/-- Exchanges the entries of two names; with none of the first name, the second is renamed. None
when there is no entry of the second name. -/
def exchange? (m : NameMap α) (a b : String) : Option (NameMap α) :=
  match m.get? b with
  | none => none
  | some ofB =>
    match m.get? a with
    | none => some ((m.erase b).insert a ofB)
    | some ofA => some ((m.insert b ofA).insert a ofB)

end Wayfinder.NameMap
