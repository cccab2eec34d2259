import Wayfinder.Switch.Merge
import Wayfinder.Proofs.Relabelling
import Wayfinder.Proofs.FreeName

/-!
What exchanging two entries and moving one aside do to a map. Main statements: an exchange holds the
same entries under exchanged names, and leads nowhere where the map led nowhere (`get?_exchange`,
`relabels_exchange`); moving aside gives the entry the least free number and frees its name
(`moveAside?_spec`).
-/

set_option autoImplicit false
set_option relaxedAutoImplicit false

namespace Wayfinder

namespace Switch

/-! ### One name for another, and two for each other -/

@[simp] theorem rename_self (a b : String) : rename a b a = b := by simp [rename]

theorem rename_of_ne {a b name : String} (h : name ≠ a) : rename a b name = name := by
  simp [rename, h]

@[simp] theorem swapNames_left (a b : String) : swapNames a b a = b := by simp [swapNames]

@[simp] theorem swapNames_right (a b : String) : swapNames a b b = a := by
  by_cases h : b = a <;> simp [swapNames, h]

theorem swapNames_of_ne {a b name : String} (ha : name ≠ a) (hb : name ≠ b) :
    swapNames a b name = name := by
  simp [swapNames, ha, hb]

theorem swapNames_involutive (a b : String) : Function.Involutive (swapNames a b) := by
  intro name
  by_cases ha : name = a
  · rw [ha, swapNames_left, swapNames_right]
  · by_cases hb : name = b
    · rw [hb, swapNames_right, swapNames_left]
    · rw [swapNames_of_ne ha hb, swapNames_of_ne ha hb]

theorem previousName_ne (preferred : String) : previousName preferred ≠ preferred := by
  intro h
  have hmark : previousMark = "" := String.append_eq_left_iff.1 h
  exact absurd hmark (by decide)

theorem previousName_ne_empty (preferred : String) : previousName preferred ≠ "" := by
  intro h
  have hmark : previousMark = "" := (String.append_eq_empty_iff.1 h).2
  exact absurd hmark (by decide)

/-- A numbered name of the previous target is never the name of the current one. -/
theorem previousName_append_ne (preferred suffix : String) :
    previousName preferred ++ suffix ≠ preferred := by
  intro h
  have hlength := congrArg String.length h
  have hmark : previousMark.length = 9 := by decide
  rw [previousName, String.length_append, String.length_append, hmark] at hlength
  omega

end Switch

namespace NameMap

open Switch

variable {α : Type} {m m' : NameMap α} {a b name free : String}

/-! ### An exchange -/

theorem exchange?_eq_none_iff : m.exchange? a b = none ↔ m.get? b = none := by
  unfold exchange?
  cases m.get? b with
  | none => simp
  | some ofB => cases m.get? a <;> simp

/-- The entry of `b` ends under `a`, whatever becomes of that of `a`. -/
theorem get?_of_exchange? (h : m.exchange? a b = some m') (k : String) :
    m'.get? k = if a = k then m.get? b else if b = k then m.get? a else m.get? k := by
  unfold exchange? at h
  cases hb : m.get? b with
  | none => simp [hb] at h
  | some ofB =>
    cases ha : m.get? a with
    | none =>
      simp only [hb, ha, Option.some.injEq] at h
      rw [← h, get?_insert, get?_erase]
    | some ofA =>
      simp only [hb, ha, Option.some.injEq] at h
      rw [← h, get?_insert, get?_insert]

theorem get?_exchange (hab : a ≠ b) (h : m.exchange? a b = some m') (k : String) :
    m'.get? (swapNames a b k) = m.get? k := by
  rw [get?_of_exchange? h]
  by_cases hka : k = a
  · rw [hka, swapNames_left, if_neg hab, if_pos rfl]
  · by_cases hkb : k = b
    · rw [hkb, swapNames_right, if_pos rfl]
    · rw [swapNames_of_ne hka hkb, if_neg (Ne.symm hka), if_neg (Ne.symm hkb)]

theorem relabels_exchange (hab : a ≠ b) (h : m.exchange? a b = some m') :
    Relabels (swapNames a b) m m' := by
  refine relabels_of_get? (fun j _ k _ heq ↦ (swapNames_involutive a b).injective heq) ?_
  intro name value
  constructor
  · intro hname
    refine ⟨swapNames a b name, ?_, swapNames_involutive a b name⟩
    rw [← get?_exchange hab h, swapNames_involutive a b name, hname]
  · rintro ⟨k, hk, rfl⟩
    rw [get?_exchange hab h, hk]

/-! ### Moving an entry aside -/

theorem moveAside?_eq_none_iff : m.moveAside? name = none ↔ m.get? name = none := by
  unfold moveAside?
  cases m.get? name <;> simp

theorem mem_names_erase {k : String} : k ∈ (m.erase name).names ↔ k ≠ name ∧ k ∈ m.names := by
  rw [mem_names_iff, mem_names_iff]
  by_cases hk : name = k
  · simp [hk]
  · simp [hk, Ne.symm hk]

/-- The names left without an entry take the same numbers as before, as none of these stands for
the entry itself. -/
theorem leastFree_erase {number : Nat} (h : LeastFree name (m.erase name).names number) :
    LeastFree name m.names number where
  pos := h.pos
  free hmem := h.free (mem_names_erase.2 ⟨numbered_ne name number, hmem⟩)
  taken k hpos hlt := (mem_names_erase.1 (h.taken k hpos hlt)).2

theorem relabels_move {value : α} (hname : m.get? name = some value) (hfree : free ∉ m.names) :
    Relabels (rename name free) m ((m.erase name).insert free value) := by
  have hne : ∀ k ∈ m.names, k ≠ free := fun k hk heq ↦ hfree (heq ▸ hk)
  refine relabels_of_get? ?_ fun other v ↦ ?_
  · intro j hj k hk heq
    unfold rename at heq
    split at heq <;> split at heq
    · next hjn hkn => rw [hjn, hkn]
    · exact absurd heq.symm (hne k hk)
    · exact absurd heq (hne j hj)
    · exact heq
  · rw [get?_insert, get?_erase]
    constructor
    · intro h
      by_cases hother : free = other
      · rw [if_pos hother] at h
        exact ⟨name, hname.trans h, by rw [rename_self, hother]⟩
      · rw [if_neg hother] at h
        by_cases hnamed : name = other
        · simp [hnamed] at h
        · rw [if_neg hnamed] at h
          exact ⟨other, h, rename_of_ne (Ne.symm hnamed)⟩
    · rintro ⟨k, hk, rfl⟩
      by_cases hkn : k = name
      · rw [hkn, rename_self, if_pos rfl]
        rw [← hk, hkn, hname]
      · have hkfree : free ≠ k := Ne.symm (hne k (mem_names_iff.2 ⟨v, hk⟩))
        rw [rename_of_ne hkn, if_neg hkfree, if_neg (Ne.symm hkn), hk]

/-- Where there is no entry to move, everything is already where a move would leave it. -/
theorem relabels_rename_of_absent (h : m.get? name = none) (free : String) :
    Relabels (rename name free) m m := by
  have hid : m.entries.map (fun e ↦ (rename name free e.1, e.2)) = m.entries := by
    calc m.entries.map (fun e ↦ (rename name free e.1, e.2))
        = m.entries.map id := by
          refine List.map_congr_left fun e he ↦ ?_
          have hne : e.1 ≠ name := by
            intro heq
            have hsome : m.get? name = some e.2 := get?_eq_some_iff.2 (heq ▸ he)
            rw [h] at hsome
            cases hsome
          rw [rename_of_ne hne, id]
      _ = m.entries := List.map_id _
  rw [Relabels, hid]

theorem moveAside?_spec (h : m.moveAside? name = some (m', free)) :
    ∃ number, LeastFree name m.names number ∧ free = name ++ toString number ∧
      Relabels (rename name free) m m' ∧ m'.get? name = none := by
  unfold moveAside? at h
  cases hname : m.get? name with
  | none => simp [hname] at h
  | some value =>
    simp only [hname, Option.some.injEq, Prod.mk.injEq] at h
    obtain ⟨hm', hfree⟩ := h
    obtain ⟨number, -, hleast, hfound⟩ := exists_leastFree name (m.erase name).names
    have hnumber : free = name ++ toString number := hfree.symm.trans hfound
    have hleast' := leastFree_erase hleast
    have hnew : free ∉ m.names := hnumber ▸ hleast'.free
    refine ⟨number, hleast', hnumber, ?_, ?_⟩
    · rw [← hm', hfree]
      exact relabels_move hname hnew
    · have hne : free ≠ name := hnumber ▸ numbered_ne name number
      rw [← hm', hfree]
      simp [hne]

end NameMap

end Wayfinder
