import Wayfinder.Browse.Cursor
import Wayfinder.Proofs.Browsing

/-!
Where the cursor of a listing stands. Main statement: whatever keys are pressed and whatever lists
are shown one after another, no row is looked at that is not there, the cursor stands on a row that
can be chosen if there is one and at the top if there is none, and each key moves it and answers as
it should (`Picker.run_points`).

A step looks at rows until one can be chosen, so it leads to the nearest such row on its way or
nowhere (`Cursor.seek?_cases`); that row is the only one (`Cursor.Nearest.unique`), and from it the
row that was left is the nearest one on the way back (`Cursor.Nearest.back`). What every key and
every new list preserve is `Picker.Pointed`.
-/

set_option autoImplicit false
set_option relaxedAutoImplicit false

namespace Wayfinder.Browse

namespace Cursor

/-- The way back. -/
def Way.back : Way → Way
  | .up => .down
  | .down => .up

/-- A position lies behind another one on a way. -/
def Way.Before : Way → Nat → Nat → Prop
  | .up, first, last => last < first
  | .down, first, last => first < last

section Ways

variable {way : Way} {first second third : Nat}

theorem Way.Before.trans (h : way.Before first second) (h' : way.Before second third) :
    way.Before first third := by
  cases way
  · exact Nat.lt_trans h' h
  · exact Nat.lt_trans h h'

theorem Way.not_before_self (way : Way) (position : Nat) : ¬ way.Before position position := by
  cases way <;> exact Nat.lt_irrefl position

theorem Way.before_total (way : Way) (first second : Nat) :
    way.Before first second ∨ first = second ∨ way.Before second first := by
  cases way
  · rcases Nat.lt_trichotomy first second with h | h | h
    · exact Or.inr (Or.inr h)
    · exact Or.inr (Or.inl h)
    · exact Or.inl h
  · exact Nat.lt_trichotomy first second

theorem Way.before_back_iff : way.back.Before first second ↔ way.Before second first := by
  cases way <;> exact Iff.rfl

end Ways

/-- A row that can be chosen stands at a position. -/
def SelectableAt (items : List Item) (position : Nat) : Prop :=
  ∃ item, items[position]? = some item ∧ isSelectable item = true

/-- The nearest row on a way from a position that can be chosen. -/
structure Nearest (items : List Item) (way : Way) (position found : Nat) : Prop where
  ahead : way.Before position found
  selectable : SelectableAt items found
  first : ∀ other, way.Before position other → way.Before other found → ¬ SelectableAt items other

variable {items : List Item} {way : Way} {position next found : Nat}

theorem SelectableAt.exists_mem (h : SelectableAt items position) :
    ∃ item ∈ items, isSelectable item = true := by
  obtain ⟨item, hitem, hselectable⟩ := h
  exact ⟨item, List.mem_of_getElem? hitem, hselectable⟩

theorem SelectableAt.lt (h : SelectableAt items position) : position < items.length := by
  obtain ⟨item, hitem, -⟩ := h
  exact (List.getElem?_eq_some_iff.1 hitem).1

/-! ### Steps -/

/-- The next position of a way is the first one ahead, and one that a row stands at. -/
theorem next?_eq_some (hreach : position ≤ items.length)
    (h : next? items.length position way = some next) :
    next < items.length ∧ way.Before position next ∧
      ∀ other, way.Before position other → other = next ∨ way.Before next other := by
  cases way <;> simp only [next?] at h <;> split at h <;> cases h <;>
    simp only [Way.Before] <;> refine ⟨by omega, by omega, fun other hother ↦ by omega⟩

/-- No row stands behind the end of a way. -/
theorem next?_eq_none {other : Nat} (h : next? items.length position way = none)
    (hother : way.Before position other) : ¬ other < items.length := by
  cases way <;> simp only [next?, ite_eq_right_iff, reduceCtorEq, imp_false] at h <;>
    simp only [Way.Before] at hother <;> omega

/-- From within reach of the list, all rows that are looked at are there, and the nearest one that
can be chosen is found. -/
theorem seek?_cases (way : Way) (hreach : position ≤ items.length) :
    (∃ found, seek? items way position = some (some found) ∧ Nearest items way position found) ∨
      seek? items way position = some none ∧
        ∀ other, way.Before position other → ¬ SelectableAt items other := by
  fun_induction seek? items way position with
  | case1 position hend =>
    exact Or.inr ⟨rfl, fun other hother hselectable ↦ next?_eq_none hend hother hselectable.lt⟩
  | case2 position next hnext hmissing =>
    have hthere := (next?_eq_some hreach hnext).1
    exact absurd hthere (Nat.not_lt.2 (List.getElem?_eq_none_iff.1 hmissing))
  | case3 position next hnext item hitem hselectable =>
    obtain ⟨-, hahead, hfirst⟩ := next?_eq_some hreach hnext
    refine Or.inl ⟨next, rfl, hahead, ⟨item, hitem, hselectable⟩, fun other hother hbefore ↦ ?_⟩
    rcases hfirst other hother with rfl | hbehind
    · exact absurd hbefore (way.not_before_self other)
    · exact absurd (hbefore.trans hbehind) (way.not_before_self other)
  | case4 position next hnext item hitem hother ih =>
    obtain ⟨hthere, hahead, hfirst⟩ := next?_eq_some hreach hnext
    -- The row that was passed over can not be chosen either.
    have hpassed : ¬ SelectableAt items next := by
      rintro ⟨row, hrow, hselectable⟩
      rw [hitem] at hrow
      exact hother (Option.some.inj hrow ▸ hselectable)
    have hnone : ∀ other, way.Before position other →
        (way.Before next other → ¬ SelectableAt items other) → ¬ SelectableAt items other := by
      intro other hbefore hlater
      rcases hfirst other hbefore with rfl | hbehind
      · exact hpassed
      · exact hlater hbehind
    rcases ih (Nat.le_of_lt hthere) with ⟨found, hfound, hnearest⟩ | ⟨hend, hrest⟩
    · exact Or.inl ⟨found, hfound, hahead.trans hnearest.ahead, hnearest.selectable,
        fun other hbefore hless ↦ hnone other hbefore fun hbehind ↦
          hnearest.first other hbehind hless⟩
    · exact Or.inr ⟨hend, fun other hbefore ↦ hnone other hbefore (hrest other)⟩

/-- There is one nearest row. -/
theorem Nearest.unique {other : Nat} (h : Nearest items way position found)
    (h' : Nearest items way position other) : found = other := by
  rcases way.before_total found other with hless | heq | hless
  · exact absurd h.selectable (h'.first found h.ahead hless)
  · exact heq
  · exact absurd h'.selectable (h.first other h'.ahead hless)

/-- The nearest row on the way back is the one that was left, if that one can be chosen. -/
theorem Nearest.back (h : Nearest items way position found) (hleft : SelectableAt items position) :
    Nearest items way.back found position where
  ahead := Way.before_back_iff.2 h.ahead
  selectable := hleft
  first other hother hless :=
    h.first other (Way.before_back_iff.1 hless) (Way.before_back_iff.1 hother)

/-- A step leads to the nearest row that can be chosen, or nowhere if there is none. -/
theorem step?_cases (way : Way) (hreach : position ≤ items.length) :
    ∃ next, step? items way position = some next ∧
      (Nearest items way position next ∨
        next = position ∧ ∀ other, way.Before position other → ¬ SelectableAt items other) := by
  rcases seek?_cases way hreach with ⟨found, hfound, hnearest⟩ | ⟨hend, hnone⟩
  · exact ⟨found, by rw [step?, hfound]; rfl, Or.inl hnearest⟩
  · exact ⟨position, by rw [step?, hend]; rfl, Or.inr ⟨rfl, hnone⟩⟩

theorem step?_of_nearest (hreach : position ≤ items.length)
    (h : Nearest items way position found) : step? items way position = some found := by
  obtain ⟨next, hnext, hnearest | ⟨-, hnone⟩⟩ := step?_cases way hreach
  · rw [hnext, hnearest.unique h]
  · exact absurd h.selectable (hnone found h.ahead)

end Cursor

/-! ### Keys -/

/-- The keys that move the cursor on a way. -/
def Key.Moves (key : Key) : Cursor.Way → Prop
  | .up => key.code = .up ∨ key.code = .character 'k'
  | .down => key.code = .down ∨ key.code = .character 'j'

/-- A key moves the cursor on one way at most. -/
theorem Key.Moves.unique {key : Key} {way other : Cursor.Way} (h : key.Moves way)
    (h' : key.Moves other) : way = other := by
  cases way <;> cases other <;> simp only [Key.Moves] at h h' <;> grind

namespace Cursor

variable {key : Key} {canAccept : Bool} {way : Way} {selection : Selection}

theorem meaning_eq_move_iff : meaning key canAccept = .move way ↔ key.Moves way := by
  obtain ⟨code, control⟩ := key
  cases way <;> cases code <;> simp only [meaning, Key.Moves] <;> grind

theorem not_moves_of_meaning {meant : Meaning} (h : meaning key canAccept = meant)
    (hmeant : ∀ way, meant ≠ .move way) (way : Way) : ¬ key.Moves way :=
  fun hway ↦ hmeant way (h.symm.trans (meaning_eq_move_iff.2 hway))

/-- No key says by itself which row is entered, and a place is accepted only where it can be. -/
theorem meaning_eq_choose (h : meaning key canAccept = .choose selection) :
    (∀ position, selection ≠ .enter position) ∧ (selection = .accept → canAccept = true) := by
  obtain ⟨code, control⟩ := key
  cases code <;> simp only [meaning] at h <;> grind

theorem press?_of_moves {items : List Item} {position : Nat} (h : key.Moves way) :
    press? key items canAccept position =
      (step? items way position).map fun next ↦ (next, none) := by
  rw [press?, meaning_eq_move_iff.2 h]

/-- A new cursor stands on a row that can be chosen, if there is one. -/
theorem selectableAt_start {items : List Item} (h : ∃ item ∈ items, isSelectable item = true) :
    SelectableAt items (start items) := by
  unfold start
  cases hchild : items.findIdx? fun item ↦ !item.isUp && isSelectable item with
  | some position =>
    obtain ⟨hlt, hitem, -⟩ := List.findIdx?_eq_some_iff_getElem.1 hchild
    exact ⟨items[position], List.getElem?_eq_getElem hlt, (Bool.and_eq_true_iff.1 hitem).2⟩
  | none =>
    cases hany : items.findIdx? isSelectable with
    | some position =>
      obtain ⟨hlt, hitem, -⟩ := List.findIdx?_eq_some_iff_getElem.1 hany
      exact ⟨items[position], List.getElem?_eq_getElem hlt, hitem⟩
    | none =>
      obtain ⟨item, hmem, hitem⟩ := h
      simp [List.findIdx?_eq_none_iff.1 hany item hmem] at hitem

/-- A new cursor stands at the top if no row can be chosen. -/
theorem start_eq_zero {items : List Item} (h : ¬ ∃ item ∈ items, isSelectable item = true) :
    start items = 0 := by
  have hnone : ∀ item ∈ items, isSelectable item = false := fun item hitem ↦
    Bool.eq_false_iff.2 fun hselectable ↦ h ⟨item, hitem, hselectable⟩
  have hchild : items.findIdx? (fun item ↦ !item.isUp && isSelectable item) = none :=
    List.findIdx?_eq_none_iff.2 fun item hitem ↦ by rw [hnone item hitem, Bool.and_false]
  rw [start, hchild, List.findIdx?_eq_none_iff.2 hnone]
  rfl

end Cursor

/-! ### Pickers -/

/-- What happens to a picker. -/
inductive Input
  /-- A key, on a screen where the place can be accepted or not. -/
  | key (key : Key) (canAccept : Bool)
  /-- Another listing is shown. -/
  | list (items : List Item)

/-- A listing with a cursor. -/
structure Picker where
  items : List Item
  position : Nat

namespace Picker

open Cursor

/-- A new listing. -/
def on (items : List Item) : Picker := { items, position := start items }

/-- What becomes of a picker; none where a row is looked at that is not in the list. -/
def take? (p : Picker) : Input → Option Picker
  | .key key canAccept =>
    (press? key p.items canAccept p.position).map fun pressed ↦ { p with position := pressed.1 }
  | .list items => some (on items)

/-- What becomes of a picker with one thing after another. -/
def run? (p : Picker) (inputs : List Input) : Option Picker := inputs.foldlM take? p

/-- The cursor stands on a row that can be chosen if there is one, and at the top if there is none.
-/
structure Pointed (p : Picker) : Prop where
  selectable : (∃ item ∈ p.items, isSelectable item = true) → SelectableAt p.items p.position
  top : (¬ ∃ item ∈ p.items, isSelectable item = true) → p.position = 0

/-- The rows of some place, as some source of answers lists them. -/
def Listed (items : List Item) : Prop :=
  ∃ (σ : Type) (api : Api (StateM σ)) (node : Node) (s next : σ),
    reply (node.items api) s = (.ok items, next)

/-- What a key does to a cursor and answers. -/
structure Answers (p : Picker) (key : Key) (canAccept : Bool) (position : Nat)
    (selection : Option Selection) : Prop where
  enters : ∀ row, selection = some (.enter row) → SelectableAt p.items row ∧
    (Listed p.items → ∃ item node, p.items[row]? = some item ∧ item.target = some node)
  accepts : selection = some .accept → canAccept = true
  moves : ∀ way, key.Moves way → Nearest p.items way p.position position ∨
    position = p.position ∧ ∀ other, way.Before p.position other → ¬ SelectableAt p.items other
  stays : (∀ way, ¬ key.Moves way) → position = p.position
  /-- A key for the way back undoes a move. -/
  returns : ∀ way, key.Moves way → position ≠ p.position →
    ∀ (back : Key) (canAccept : Bool), back.Moves way.back →
      press? back p.items canAccept position = some (p.position, none)

variable {p : Picker} {key : Key} {canAccept : Bool}

theorem Pointed.reach (h : p.Pointed) : p.position ≤ p.items.length := by
  by_cases hsome : ∃ item ∈ p.items, isSelectable item = true
  · exact Nat.le_of_lt (h.selectable hsome).lt
  · exact h.top hsome ▸ Nat.zero_le _

theorem pointed_on (items : List Item) : (on items).Pointed :=
  ⟨selectableAt_start, start_eq_zero⟩

/-- A row that can be chosen leads somewhere. -/
theorem exists_target_of_listed {items : List Item} (h : Listed items) {item : Item}
    (hitem : item ∈ items) (hselectable : isSelectable item = true) :
    ∃ node, item.target = some node := by
  obtain ⟨σ, api, node, s, next, hitems⟩ := h
  obtain ⟨children, middle, hchildren, hlisting⟩ := reply_bind_eq_ok_iff.1 hitems
  cases hlisting
  rcases Node.mem_listing hitem with ⟨parent, -, rfl⟩ | ⟨text, rfl⟩ | hchild
  · exact ⟨parent, rfl⟩
  · simp [isSelectable, Item.placeholder] at hselectable
  · obtain ⟨name, below, rfl, -⟩ := Node.exists_child_of_children hchildren hchild
    exact ⟨below, rfl⟩

/-- The cursor stays where it is, and what is chosen is chosen rightly. -/
theorem answers_stay {selection : Option Selection} (hkey : ∀ way, ¬ key.Moves way)
    (henter : ∀ row, selection = some (.enter row) → SelectableAt p.items row)
    (haccept : selection = some .accept → canAccept = true) :
    p.Answers key canAccept p.position selection where
  enters row hrow := by
    obtain ⟨item, hitem, hselectable⟩ := henter row hrow
    refine ⟨⟨item, hitem, hselectable⟩, fun hlisted ↦ ?_⟩
    obtain ⟨node, hnode⟩ :=
      exists_target_of_listed hlisted (List.mem_of_getElem? hitem) hselectable
    exact ⟨item, node, hitem, hnode⟩
  accepts := haccept
  moves way hway := absurd hway (hkey way)
  stays _ := rfl
  returns way hway := absurd hway (hkey way)

theorem Pointed.answers_move (h : p.Pointed) {way : Way} (hkey : key.Moves way) :
    ∃ position, press? key p.items canAccept p.position = some (position, none) ∧
      p.Answers key canAccept position none := by
  obtain ⟨position, hstep, hcases⟩ := step?_cases way h.reach
  refine ⟨position, by rw [press?_of_moves hkey, hstep]; rfl, ?_⟩
  exact
    { enters := by simp
      accepts := by simp
      moves := fun other hother ↦ hother.unique hkey ▸ hcases
      stays := fun hnone ↦ absurd hkey (hnone way)
      returns := by
        intro other hother hmoved back canAccept' hback
        obtain rfl := hother.unique hkey
        rcases hcases with hnearest | ⟨hstayed, -⟩
        · -- The row that was left can be chosen, since some row can.
          have hleft := h.selectable hnearest.selectable.exists_mem
          rw [press?_of_moves hback, step?_of_nearest (Nat.le_of_lt hnearest.selectable.lt)
            (hnearest.back hleft)]
          rfl
        · exact absurd hstayed hmoved }

/-- Every key is answered at a cursor that points rightly. -/
theorem Pointed.exists_answers (h : p.Pointed) (key : Key) (canAccept : Bool) :
    ∃ position selection, press? key p.items canAccept p.position = some (position, selection) ∧
      p.Answers key canAccept position selection := by
  cases hmeaning : meaning key canAccept with
  | move way =>
    obtain ⟨position, hpress, hanswers⟩ := h.answers_move (meaning_eq_move_iff.1 hmeaning)
    exact ⟨position, none, hpress, hanswers⟩
  | enter =>
    have hkey := not_moves_of_meaning hmeaning (by simp)
    cases hitem : p.items[p.position]? with
    | none =>
      refine ⟨p.position, none, ?_, answers_stay hkey (by simp) (by simp)⟩
      simp only [press?, hmeaning, hitem]
    | some item =>
      refine ⟨p.position, if isSelectable item then some (.enter p.position) else none, ?_,
        answers_stay hkey (fun row hrow ↦ ?_) ?_⟩
      · simp only [press?, hmeaning, hitem]
      · split at hrow
        · next hselectable =>
          cases hrow
          exact ⟨item, hitem, hselectable⟩
        · cases hrow
      · split <;> simp
  | choose selection =>
    have hkey := not_moves_of_meaning hmeaning (by simp)
    obtain ⟨henter, haccept⟩ := meaning_eq_choose hmeaning
    refine ⟨p.position, some selection, ?_, answers_stay hkey (fun row hrow ↦ ?_) fun hrow ↦
      haccept (Option.some.inj hrow)⟩
    · simp only [press?, hmeaning]
    · exact absurd (Option.some.inj hrow) (henter row)
  | nothing =>
    have hkey := not_moves_of_meaning hmeaning (by simp)
    refine ⟨p.position, none, ?_, answers_stay hkey (by simp) (by simp)⟩
    simp only [press?, hmeaning]

/-- A key that is answered leaves the cursor where it should stand. -/
theorem Answers.pointed {position : Nat} {selection : Option Selection}
    (h : p.Answers key canAccept position selection) (hp : p.Pointed) :
    ({ p with position } : Picker).Pointed := by
  have hcases : position = p.position ∨ SelectableAt p.items position := by
    by_cases hkey : ∃ way, key.Moves way
    · obtain ⟨way, hway⟩ := hkey
      rcases h.moves way hway with hnearest | ⟨hstayed, -⟩
      · exact Or.inr hnearest.selectable
      · exact Or.inl hstayed
    · exact Or.inl (h.stays (not_exists.1 hkey))
  rcases hcases with rfl | hselectable
  · exact hp
  · exact ⟨fun _ ↦ hselectable, fun hnone ↦ absurd hselectable.exists_mem hnone⟩

/-- Whatever happens to a picker, it goes on, and its cursor stands where it should. -/
theorem Pointed.exists_take? (h : p.Pointed) (input : Input) :
    ∃ next, p.take? input = some next ∧ next.Pointed := by
  cases input with
  | key key canAccept =>
    obtain ⟨position, selection, hpress, hanswers⟩ := h.exists_answers key canAccept
    exact ⟨{ p with position }, by rw [take?, hpress]; rfl, hanswers.pointed h⟩
  | list items => exact ⟨on items, rfl, pointed_on items⟩

theorem Pointed.exists_run? (h : p.Pointed) (inputs : List Input) :
    ∃ next, p.run? inputs = some next ∧ next.Pointed := by
  induction inputs generalizing p with
  | nil => exact ⟨p, rfl, h⟩
  | cons input rest ih =>
    obtain ⟨next, hnext, hpointed⟩ := h.exists_take? input
    obtain ⟨last, hlast, hstands⟩ := ih hpointed
    exact ⟨last, by rw [run?, List.foldlM_cons, hnext]; exact hlast, hstands⟩

/-- Whatever keys are pressed and whatever listings are shown, all rows that are looked at are in
the list, the cursor stands on a row that can be chosen if there is one and at the top if there is
none, and the next key, whichever it is, moves it and is answered as it should be. -/
theorem run_points (items : List Item) (inputs : List Input) :
    ∃ p, (on items).run? inputs = some p ∧ p.Pointed ∧
      ∀ key canAccept, ∃ position selection,
        press? key p.items canAccept p.position = some (position, selection) ∧
          p.Answers key canAccept position selection := by
  obtain ⟨p, hrun, hpointed⟩ := (pointed_on items).exists_run? inputs
  exact ⟨p, hrun, hpointed, hpointed.exists_answers⟩

end Picker

end Wayfinder.Browse
