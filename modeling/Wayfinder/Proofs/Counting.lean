import Mathlib.Data.Finset.Card
import Mathlib.Order.Interval.Finset.Nat
import Wayfinder.Proofs.FreeName

/-!
The search for a free name as a count without an end of its own. The counter has 32 bits; a number
whose name is taken is passed, and nothing but a free name stops the count, or the counter when it
can hold no more. Main statement: among fewer than `2 ^ 32 - 1` names the count comes to a stop at
the least free number, after as many rounds as that number says and never with a full counter; what
it finds is `freeName` (`Search.run_finds`).

The bound comes from the names alone: every number before the least free one leads to a name of its
own that is taken (`LeastFree.le_card`).
-/

set_option autoImplicit false
set_option relaxedAutoImplicit false

namespace Wayfinder.Switch

variable {start : String} {names : List String} {number : ℕ}

/-- The least free number is at most one more than there are different names. -/
theorem LeastFree.le_card (h : LeastFree start names number) :
    number ≤ names.toFinset.card + 1 := by
  have hsub : (Finset.Ico 1 number).image (fun n : ℕ ↦ start ++ toString n) ⊆ names.toFinset := by
    intro name hname
    obtain ⟨k, hk, rfl⟩ := Finset.mem_image.1 hname
    obtain ⟨hpos, hlt⟩ := Finset.mem_Ico.1 hk
    exact List.mem_toFinset.2 (h.taken k hpos hlt)
  have hcard := Finset.card_le_card hsub
  rw [Finset.card_image_of_injective _ (numbered_injective start), Nat.card_Ico] at hcard
  omega

/-- A search for a free name: under way with a number to try next, or at its end. -/
inductive Search
  | trying (number : UInt32)
  | found (name : String)
  /-- The counter can not hold the next number. -/
  | overflown
  deriving DecidableEq, Repr

namespace Search

/-- One round of a search: a number that leads to a free name ends it, any other is passed. -/
def step (start : String) (names : List String) : Search → Search
  | trying number =>
    if start ++ toString number.toNat ∈ names then
      if number.toNat + 1 < UInt32.size then trying (number + 1) else overflown
    else found (start ++ toString number.toNat)
  | found name => found name
  | overflown => overflown

/-- What a search from 1 on has come to after some rounds. -/
def run (start : String) (names : List String) : ℕ → Search
  | 0 => trying 1
  | rounds + 1 => (run start names rounds).step start names

theorem step_of_taken {n : ℕ} (htaken : start ++ toString n ∈ names) (hn : n + 1 < UInt32.size) :
    (trying (UInt32.ofNat n)).step start names = trying (UInt32.ofNat (n + 1)) := by
  have htoNat : (UInt32.ofNat n).toNat = n := UInt32.toNat_ofNat_of_lt' (by omega)
  rw [step, htoNat, if_pos htaken, if_pos hn, UInt32.ofNat_add]
  rfl

theorem step_of_free {n : ℕ} (hfree : start ++ toString n ∉ names) (hn : n < UInt32.size) :
    (trying (UInt32.ofNat n)).step start names = found (start ++ toString n) := by
  have htoNat : (UInt32.ofNat n).toNat = n := UInt32.toNat_ofNat_of_lt' hn
  rw [step, htoNat, if_neg hfree]

/-- Before the least free number every round counts on. -/
theorem run_of_lt (h : LeastFree start names number) (hnumber : number < UInt32.size) {rounds : ℕ}
    (hrounds : rounds < number) :
    run start names rounds = trying (UInt32.ofNat (rounds + 1)) := by
  induction rounds with
  | zero => rfl
  | succ rounds ih =>
    have htaken := h.taken (rounds + 1) (by omega) hrounds
    rw [run, ih (by omega), step_of_taken htaken (by omega)]

/-- From the round of the least free number on the search has found its name. -/
theorem run_of_le (h : LeastFree start names number) (hnumber : number < UInt32.size) {rounds : ℕ}
    (hrounds : number ≤ rounds) : run start names rounds = found (start ++ toString number) := by
  induction rounds, hrounds using Nat.le_induction with
  | base =>
    obtain ⟨before, rfl⟩ : ∃ before, number = before + 1 :=
      Nat.exists_eq_succ_of_ne_zero (Nat.pos_iff_ne_zero.1 h.pos)
    rw [run, run_of_lt h hnumber (Nat.lt_succ_self before), step_of_free h.free hnumber]
  | succ rounds hle ih => rw [run, ih, step]

/-- Among fewer than `2 ^ 32 - 1` names the search ends, with the least number from 1 on that leads
to a free name. It takes as many rounds as that number says, at most one more than there are names,
and its counter never overflows. -/
theorem run_finds (start : String) (names : List String)
    (h : names.toFinset.card < 2 ^ 32 - 1) :
    ∃ number, 1 ≤ number ∧ number ≤ names.toFinset.card + 1 ∧
      start ++ toString number ∉ names ∧
      (∀ k, 1 ≤ k → k < number → start ++ toString k ∈ names) ∧
      freeName start names = start ++ toString number ∧
      (∀ rounds, run start names rounds = found (freeName start names) ↔ number ≤ rounds) ∧
      ∀ rounds, run start names rounds ≠ overflown := by
  obtain ⟨number, -, hleast, hname⟩ := exists_leastFree start names
  have hcard := hleast.le_card
  have hnumber : number < UInt32.size := by
    have hsize : UInt32.size = 2 ^ 32 := rfl
    omega
  have hruns (rounds : ℕ) : run start names rounds = found (start ++ toString number) ∨
      rounds < number ∧ run start names rounds = trying (UInt32.ofNat (rounds + 1)) := by
    rcases Nat.lt_or_ge rounds number with hlt | hle
    · exact Or.inr ⟨hlt, run_of_lt hleast hnumber hlt⟩
    · exact Or.inl (run_of_le hleast hnumber hle)
  refine ⟨number, hleast.pos, hcard, hleast.free, hleast.taken, hname, fun rounds ↦ ?_,
    fun rounds ↦ ?_⟩
  · rw [hname]
    refine ⟨fun hfound ↦ ?_, run_of_le hleast hnumber⟩
    by_contra hlt
    rw [run_of_lt hleast hnumber (Nat.lt_of_not_le hlt)] at hfound
    cases hfound
  · rcases hruns rounds with hrun | ⟨-, hrun⟩
    · rw [hrun]
      exact Search.noConfusion
    · rw [hrun]
      exact Search.noConfusion

/-- A start that ends in a digit itself, and a gap among the numbers that are taken. -/
theorem run_finds_gap :
    ["x1", "x11", "x12", "x14"].toFinset.card < 2 ^ 32 - 1 ∧
      freeName "x1" ["x1", "x11", "x12", "x14"] = "x13" ∧
      run "x1" ["x1", "x11", "x12", "x14"] 2 = trying 3 ∧
      ∀ rounds, run "x1" ["x1", "x11", "x12", "x14"] rounds = found "x13" ↔ 3 ≤ rounds := by
  have hcard : ["x1", "x11", "x12", "x14"].toFinset.card < 2 ^ 32 - 1 := by decide
  have hname : freeName "x1" ["x1", "x11", "x12", "x14"] = "x13" := by decide
  obtain ⟨number, -, -, -, -, hnumber, hruns, -⟩ := run_finds "x1" _ hcard
  obtain rfl : number = 3 := numbered_injective "x1" (hnumber.symm.trans hname)
  rw [hname] at hruns
  exact ⟨hcard, hname, by decide, hruns⟩

end Search

end Wayfinder.Switch
