/-!
Finite maps from names, kept in the byte order of the names. Main statements: a map is determined
by what its names lead to (`NameMap.ext_get?`), and each operation says what it does to that view.
-/

set_option autoImplicit false
set_option relaxedAutoImplicit false

namespace Wayfinder

/-- Entries under pairwise different names, in increasing order of the names. -/
structure NameMap (α : Type) where
  entries : List (String × α)
  sorted : entries.Pairwise (fun a b => a.1 < b.1)

namespace NameMap

variable {α β : Type}

/-- What a list of entries holds under a name. -/
def lookup (name : String) : List (String × α) → Option α
  | [] => none
  | (key, value) :: rest => if key = name then some value else lookup name rest

/-- Puts an entry in its place, instead of one of the same name. -/
def place (name : String) (value : α) : List (String × α) → List (String × α)
  | [] => [(name, value)]
  | (key, old) :: rest =>
    if name < key then (name, value) :: (key, old) :: rest
    else if key = name then (name, value) :: rest
    else (key, old) :: place name value rest

theorem mem_place {name : String} {value : α} {e : String × α} {l : List (String × α)}
    (h : e ∈ place name value l) : e = (name, value) ∨ e ∈ l := by
  induction l with
  | nil => simpa [place] using h
  | cons hd tl ih =>
    obtain ⟨key, old⟩ := hd
    rw [place] at h
    split at h
    · simpa using h
    · split at h
      · rcases List.mem_cons.1 h with h | h
        · exact Or.inl h
        · exact Or.inr (List.mem_cons_of_mem _ h)
      · rcases List.mem_cons.1 h with h | h
        · exact Or.inr (h ▸ List.mem_cons_self)
        · exact (ih h).imp id (List.mem_cons_of_mem _)

theorem sorted_place (name : String) (value : α) {l : List (String × α)}
    (h : l.Pairwise (fun a b => a.1 < b.1)) :
    (place name value l).Pairwise (fun a b => a.1 < b.1) := by
  induction l with
  | nil => simp [place]
  | cons hd tl ih =>
    obtain ⟨key, old⟩ := hd
    rw [List.pairwise_cons] at h
    rw [place]
    split
    · next hlt =>
      refine List.pairwise_cons.2 ⟨fun e he => ?_, List.pairwise_cons.2 h⟩
      rcases List.mem_cons.1 he with rfl | he
      · exact hlt
      · exact String.lt_trans hlt (h.1 e he)
    · next hge =>
      split
      · next heq => subst heq; exact List.pairwise_cons.2 h
      · next hne =>
        refine List.pairwise_cons.2 ⟨fun e he => ?_, ih h.2⟩
        rcases mem_place he with rfl | he
        · rcases Std.lt_trichotomy key name with hlt | heq | hgt
          · exact hlt
          · exact absurd heq hne
          · exact absurd hgt hge
        · exact h.1 e he

/-- The map without entries. -/
def empty : NameMap α := ⟨[], List.Pairwise.nil⟩

instance : EmptyCollection (NameMap α) := ⟨empty⟩

instance : Inhabited (NameMap α) := ⟨empty⟩

instance [DecidableEq α] : DecidableEq (NameMap α) := fun a b =>
  decidable_of_iff (a.entries = b.entries) (by cases a; cases b; simp)

/-- What the map holds under a name. -/
def get? (m : NameMap α) (name : String) : Option α := lookup name m.entries

/-- Whether the map holds something under a name. -/
def contains (m : NameMap α) (name : String) : Bool := (m.get? name).isSome

/-- Holds `value` under `name`, whatever stood there. -/
def insert (m : NameMap α) (name : String) (value : α) : NameMap α :=
  ⟨place name value m.entries, sorted_place name value m.sorted⟩

/-- Holds nothing under `name`. -/
def erase (m : NameMap α) (name : String) : NameMap α :=
  ⟨m.entries.filter (fun e => e.1 != name), m.sorted.filter _⟩

/-- Changes the values and keeps the names. -/
def map (f : α → β) (m : NameMap α) : NameMap β :=
  ⟨m.entries.map (fun e => (e.1, f e.2)), by
    have h := m.sorted
    rw [List.pairwise_map]
    exact h⟩

/-- The map of a list of entries, in which a later entry replaces an earlier one of its name. -/
def ofList (l : List (String × α)) : NameMap α :=
  l.foldl (fun m e => m.insert e.1 e.2) empty

/-- The names in increasing order. -/
def names (m : NameMap α) : List String := m.entries.map (·.1)

/-- The number of entries. -/
def size (m : NameMap α) : Nat := m.entries.length

theorem lookup_place (name other : String) (value : α) (l : List (String × α)) :
    lookup other (place name value l) = if name = other then some value else lookup other l := by
  induction l with
  | nil => simp [place, lookup]
  | cons hd tl ih =>
    obtain ⟨key, old⟩ := hd
    rw [place]
    split
    · simp [lookup]
    · split
      · next heq =>
        subst heq
        by_cases h : key = other <;> simp [lookup, h]
      · next hne =>
        rw [lookup, lookup, ih]
        by_cases h : key = other
        · subst h
          simp [Ne.symm hne]
        · simp [h]

theorem lookup_filter_ne (name other : String) (l : List (String × α)) :
    lookup other (l.filter (fun e => e.1 != name)) =
      if name = other then none else lookup other l := by
  induction l with
  | nil => simp [lookup]
  | cons hd tl ih =>
    obtain ⟨key, old⟩ := hd
    by_cases hk : key = name
    · subst hk
      simp only [List.filter_cons, bne_self_eq_false, Bool.false_eq_true, if_false, ih, lookup]
      by_cases h : key = other <;> simp [h]
    · have : (key != name) = true := by simpa using hk
      simp only [List.filter_cons, this, if_true, lookup, ih]
      by_cases h : key = other
      · subst h
        simp [Ne.symm hk]
      · simp [h]

theorem lookup_map (f : α → β) (name : String) (l : List (String × α)) :
    lookup name (l.map (fun e => (e.1, f e.2))) = (lookup name l).map f := by
  induction l with
  | nil => rfl
  | cons hd tl ih =>
    obtain ⟨key, old⟩ := hd
    by_cases h : key = name <;> simp [lookup, h, ih]

@[simp] theorem get?_empty (name : String) : (empty : NameMap α).get? name = none := rfl

@[simp] theorem get?_insert (m : NameMap α) (name other : String) (value : α) :
    (m.insert name value).get? other = if name = other then some value else m.get? other :=
  lookup_place name other value m.entries

@[simp] theorem get?_erase (m : NameMap α) (name other : String) :
    (m.erase name).get? other = if name = other then none else m.get? other :=
  lookup_filter_ne name other m.entries

@[simp] theorem get?_map (f : α → β) (m : NameMap α) (name : String) :
    (m.map f).get? name = (m.get? name).map f :=
  lookup_map f name m.entries

theorem mem_of_lookup {name : String} {value : α} {l : List (String × α)}
    (h : lookup name l = some value) : (name, value) ∈ l := by
  induction l with
  | nil => simp [lookup] at h
  | cons hd tl ih =>
    obtain ⟨key, old⟩ := hd
    rw [lookup] at h
    split at h
    · next heq =>
      rw [← heq, ← Option.some.inj h]
      exact List.mem_cons_self
    · exact List.mem_cons_of_mem _ (ih h)

theorem lookup_of_mem {name : String} {value : α} {l : List (String × α)}
    (hs : l.Pairwise (fun a b => a.1 < b.1)) (h : (name, value) ∈ l) :
    lookup name l = some value := by
  induction l with
  | nil => simp at h
  | cons hd tl ih =>
    obtain ⟨key, old⟩ := hd
    rw [List.pairwise_cons] at hs
    rcases List.mem_cons.1 h with heq | hmem
    · cases heq
      simp [lookup]
    · have hlt : key < name := hs.1 _ hmem
      have hne : ¬ key = name := fun he => String.lt_irrefl name (he ▸ hlt)
      simp only [lookup, hne, if_false]
      exact ih hs.2 hmem

theorem get?_eq_some_iff {m : NameMap α} {name : String} {value : α} :
    m.get? name = some value ↔ (name, value) ∈ m.entries :=
  ⟨mem_of_lookup, lookup_of_mem m.sorted⟩

theorem mem_names_iff {m : NameMap α} {name : String} :
    name ∈ m.names ↔ ∃ value, m.get? name = some value := by
  simp only [names, List.mem_map, Prod.exists, exists_and_right, exists_eq_right,
    get?_eq_some_iff]

theorem entries_ext {l r : List (String × α)} (hl : l.Pairwise (fun a b => a.1 < b.1))
    (hr : r.Pairwise (fun a b => a.1 < b.1)) (h : ∀ e, e ∈ l ↔ e ∈ r) : l = r := by
  induction l generalizing r with
  | nil =>
    cases r with
    | nil => rfl
    | cons b r => exact absurd ((h b).2 List.mem_cons_self) List.not_mem_nil
  | cons a l ih =>
    cases r with
    | nil => exact absurd ((h a).1 List.mem_cons_self) List.not_mem_nil
    | cons b r =>
      rw [List.pairwise_cons] at hl hr
      have hab : a = b := by
        rcases List.mem_cons.1 ((h a).1 List.mem_cons_self) with h1 | h1
        · exact h1
        · rcases List.mem_cons.1 ((h b).2 List.mem_cons_self) with h2 | h2
          · exact h2.symm
          · exact absurd (hl.1 b h2) (String.lt_asymm (hr.1 a h1))
      subst hab
      have : l = r := ih hl.2 hr.2 fun e => by
        constructor
        · intro he
          rcases List.mem_cons.1 ((h e).1 (List.mem_cons_of_mem _ he)) with h1 | h1
          · exact absurd (hl.1 e he) (h1 ▸ String.lt_irrefl _)
          · exact h1
        · intro he
          rcases List.mem_cons.1 ((h e).2 (List.mem_cons_of_mem _ he)) with h1 | h1
          · exact absurd (hr.1 e he) (h1 ▸ String.lt_irrefl _)
          · exact h1
      rw [this]

/-- Two maps are equal when they hold the same under every name. -/
theorem ext_get? {a b : NameMap α} (h : ∀ name, a.get? name = b.get? name) : a = b := by
  have hmem : ∀ e, e ∈ a.entries ↔ e ∈ b.entries := fun e => by
    rw [show e = (e.1, e.2) from rfl, ← get?_eq_some_iff, ← get?_eq_some_iff, h]
  have := entries_ext a.sorted b.sorted hmem
  cases a
  cases b
  simpa using this

theorem contains_iff {m : NameMap α} {name : String} :
    m.contains name = true ↔ ∃ value, m.get? name = some value := by
  simp [contains, Option.isSome_iff_exists]

end NameMap

end Wayfinder
