import Wayfinder.Switch.Names
import Mathlib.Data.List.Nodup

/-!
The name that an entry gets when it makes way. Main statement: the search ends with the least free
number, because among one more number than there are names one is free (`exists_leastFree`).
-/

set_option autoImplicit false
set_option relaxedAutoImplicit false

namespace Wayfinder.Switch

/-- The least number from 1 on that leads from `start` to a name outside of `names`. -/
structure LeastFree (start : String) (names : List String) (number : Nat) : Prop where
  pos : 1 ≤ number
  free : start ++ toString number ∉ names
  taken : ∀ k, 1 ≤ k → k < number → start ++ toString k ∈ names

theorem numbered_injective (start : String) :
    Function.Injective fun n : Nat ↦ start ++ toString n := by
  intro j k h
  have hrepr : Nat.repr j = Nat.repr k := by
    simpa only [Nat.toString_eq_repr, String.append_right_inj] using h
  have htext : Nat.toDigits 10 j = Nat.toDigits 10 k := by
    rw [← Nat.toList_repr, ← Nat.toList_repr, hrepr]
  rw [← Nat.ofDigitChars_ten_toDigits (n := j), htext, Nat.ofDigitChars_ten_toDigits]

theorem numbered_ne (start : String) (number : Nat) : start ++ toString number ≠ start := by
  rw [Nat.toString_eq_repr]
  intro h
  exact Nat.repr_ne_empty (String.append_eq_left_iff.1 h)

/-- Not all of the numbers from 1 to one more than there are names can be taken. -/
theorem freeNumber_not_taken (start : String) (names : List String) :
    start ++ toString (freeNumber (fun n ↦ names.contains (start ++ toString n)) names.length 1)
      ∉ names := by
  set number := freeNumber (fun n ↦ names.contains (start ++ toString n)) names.length 1
    with hnumber
  have hle : number ≤ 1 + names.length := freeNumber_le _ _ _
  rcases Nat.lt_or_eq_of_le hle with hlt | heq
  · have hfree := freeNumber_free hlt
    rw [← hnumber] at hfree
    simpa using hfree
  · -- the last number is not looked at: that it is free is a matter of counting
    intro hlast
    have hsub : (List.range' 1 (names.length + 1)).map (fun n ↦ start ++ toString n) ⊆ names := by
      intro name hname
      obtain ⟨k, hk, rfl⟩ := List.mem_map.1 hname
      rw [List.mem_range'_1] at hk
      by_cases hkn : k = number
      · rwa [hkn]
      · have htaken := taken_of_lt_freeNumber hk.1 (show k < number by omega)
        simpa using htaken
    have hnodup : ((List.range' 1 (names.length + 1)).map fun n ↦ start ++ toString n).Nodup :=
      List.Nodup.map (numbered_injective start) List.nodup_range'
    have hlength := List.Nodup.length_le_of_subset hnodup hsub
    rw [List.length_map, List.length_range'] at hlength
    omega

/-- The search for a free name finds the least number, at most one more than there are names. -/
theorem exists_leastFree (start : String) (names : List String) :
    ∃ number, number ≤ names.length + 1 ∧ LeastFree start names number ∧
      freeName start names = start ++ toString number := by
  refine ⟨freeNumber (fun n ↦ names.contains (start ++ toString n)) names.length 1, ?_, ?_, rfl⟩
  · have hle := freeNumber_le (fun n ↦ names.contains (start ++ toString n)) names.length 1
    omega
  · refine ⟨le_freeNumber _ _ _, freeNumber_not_taken start names, fun k hpos hlt ↦ ?_⟩
    have htaken := taken_of_lt_freeNumber hpos hlt
    simpa using htaken

end Wayfinder.Switch
