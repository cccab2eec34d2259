import Wayfinder.NameMap
import Mathlib.Data.Multiset.MapFold
import Mathlib.Data.List.Nodup

/-!
Maps that hold the same values under other names. Main statements: a map whose look-ups are those
of another through an injective change of names holds exactly its entries (`relabels_of_get?`), and
a change of names keeps the values, repeated ones included (`Relabels.values`).
-/

set_option autoImplicit false
set_option relaxedAutoImplicit false

namespace Wayfinder.NameMap

variable {α β : Type}

/-! ### Names and values -/

/-- The values of a map, each as often as there are names for it. -/
def values (m : NameMap α) : Multiset α := (m.entries.map (·.2) : List α)

@[simp] theorem values_map (f : α → β) (m : NameMap α) : (m.map f).values = m.values.map f := by
  simp [values, map, Function.comp_def]

@[simp] theorem names_map (f : α → β) (m : NameMap α) : (m.map f).names = m.names := by
  simp [names, map, Function.comp_def]

theorem names_nodup (m : NameMap α) : m.names.Nodup := by
  have hlt : m.names.Pairwise (· < ·) := List.pairwise_map.2 m.sorted
  refine hlt.imp fun {a b} hab heq ↦ ?_
  exact String.lt_irrefl b (heq ▸ hab)

theorem entries_nodup (m : NameMap α) : m.entries.Nodup :=
  List.Nodup.of_map Prod.fst m.names_nodup

theorem contains_iff_mem_names {m : NameMap α} {name : String} :
    m.contains name = true ↔ name ∈ m.names := by
  rw [contains_iff, mem_names_iff]

/-! ### Entries of a map after an insertion -/

theorem perm_place {name : String} {value : α} {l : List (String × α)}
    (h : lookup name l = none) : (place name value l).Perm ((name, value) :: l) := by
  induction l with
  | nil => exact List.Perm.refl _
  | cons e l ih =>
    obtain ⟨key, old⟩ := e
    have hkey : ¬ key = name := by
      intro heq
      simp [lookup, heq] at h
    rw [lookup, if_neg hkey] at h
    rw [place]
    split
    · exact List.Perm.refl _
    · exact ((ih h).cons _).trans (List.Perm.swap _ _ _)

/-- A new name adds one entry. -/
theorem perm_insert {m : NameMap α} {name : String} (value : α) (h : m.get? name = none) :
    (m.insert name value).entries.Perm ((name, value) :: m.entries) :=
  perm_place h

theorem get?_insert_of_some {m : NameMap α} {name key : String} {value : α}
    (hnone : m.get? name = none) (hsome : m.get? key = some value) (new : α) :
    (m.insert name new).get? key = some value := by
  have hne : name ≠ key := by
    rintro rfl
    rw [hnone] at hsome
    cases hsome
  rw [get?_insert, if_neg hne, hsome]

theorem values_insert {m : NameMap α} {name : String} (value : α) (h : m.get? name = none) :
    (m.insert name value).values = value ::ₘ m.values :=
  Multiset.coe_eq_coe.2 ((perm_insert value h).map Prod.snd)

theorem names_insert {m : NameMap α} {name : String} (value : α) (h : m.get? name = none) :
    (m.insert name value).names.Perm (name :: m.names) :=
  (perm_insert value h).map Prod.fst

/-! ### The same entries under other names -/

/-- The second map holds the entries of the first, each under the name that `f` gives it. -/
def Relabels (f : String → String) (before after : NameMap α) : Prop :=
  after.entries.Perm (before.entries.map fun e ↦ (f e.1, e.2))

theorem Relabels.values {f : String → String} {before after : NameMap α}
    (h : Relabels f before after) : after.values = before.values := by
  have hmap := h.map Prod.snd
  rw [List.map_map] at hmap
  exact Multiset.coe_eq_coe.2 hmap

theorem Relabels.names {f : String → String} {before after : NameMap α}
    (h : Relabels f before after) : after.names.Perm (before.names.map f) := by
  have hmap := h.map Prod.fst
  rw [List.map_map] at hmap
  rw [NameMap.names, NameMap.names, List.map_map]
  exact hmap

theorem Relabels.get? {f : String → String} {before after : NameMap α}
    (h : Relabels f before after) {name : String} {value : α}
    (hvalue : before.get? name = some value) : after.get? (f name) = some value := by
  rw [get?_eq_some_iff] at hvalue ⊢
  exact h.mem_iff.2 (List.mem_map.2 ⟨(name, value), hvalue, rfl⟩)

/-- Two maps whose look-ups correspond through a change of names hold the same entries under those
names. The change has to keep the names of the first map apart. -/
theorem relabels_of_get? {f : String → String} {before after : NameMap α}
    (hinj : ∀ j ∈ before.names, ∀ k ∈ before.names, f j = f k → j = k)
    (h : ∀ name value, after.get? name = some value ↔
      ∃ k, before.get? k = some value ∧ f k = name) : Relabels f before after := by
  have hnames : (before.entries.map fun e ↦ (f e.1, e.2)).Nodup := by
    refine List.Nodup.of_map Prod.fst ?_
    rw [List.map_map]
    have hnodup : (before.names.map f).Nodup := before.names_nodup.map_on hinj
    rwa [NameMap.names, List.map_map] at hnodup
  refine (List.perm_ext_iff_of_nodup after.entries_nodup hnames).2 fun e ↦ ?_
  obtain ⟨name, value⟩ := e
  rw [← get?_eq_some_iff, h, List.mem_map]
  constructor
  · rintro ⟨k, hk, rfl⟩
    exact ⟨(k, value), get?_eq_some_iff.1 hk, rfl⟩
  · rintro ⟨⟨k, v⟩, hmem, heq⟩
    obtain ⟨hname, hvalue⟩ := Prod.mk.inj heq
    exact ⟨k, hvalue ▸ get?_eq_some_iff.2 hmem, hname⟩

end Wayfinder.NameMap
