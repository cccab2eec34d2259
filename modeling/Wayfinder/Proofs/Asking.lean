import Wayfinder.Place.Listing

/-!
What questions come to when all that answers them is a state: the answer, and the state after it.
A source of answers is steady when it gives the same rows for a place whatever it has been asked
before (`Api.Steady`); then every listing of the place is the same as well (`reply_items`).
-/

set_option autoImplicit false
set_option relaxedAutoImplicit false

namespace Wayfinder

variable {σ α β : Type}

/-- What questions come to: the answer, and the state after it. -/
def reply (x : ExceptT Failure (StateM σ) α) (s : σ) : Except Failure α × σ := x.run.run s

theorem reply_pure (a : α) (s : σ) :
    reply (pure a : ExceptT Failure (StateM σ) α) s = (.ok a, s) := rfl

/-- Going on whether or not there was an answer. -/
theorem reply_lift_run {x : ExceptT Failure (StateM σ) α} {s next : σ} {answer : Except Failure α}
    (h : reply x s = (answer, next)) : reply (ExceptT.lift x.run) s = (.ok answer, next) := by
  have hlift : reply (ExceptT.lift x.run) s = (.ok (reply x s).1, (reply x s).2) := rfl
  rw [hlift, h]

theorem reply_bind (x : ExceptT Failure (StateM σ) α) (f : α → ExceptT Failure (StateM σ) β)
    (s : σ) :
    reply (x >>= f) s =
      match reply x s with
      | (.ok a, next) => reply (f a) next
      | (.error failure, next) => (.error failure, next) := by
  have hbind : reply (x >>= f) s =
      (reply (ExceptT.mk (ExceptT.bindCont f (reply x s).1)) (reply x s).2) := rfl
  rw [hbind]
  rcases reply x s with ⟨failure | a, next⟩
  · rfl
  · rfl

theorem reply_bind_eq_ok_iff {x : ExceptT Failure (StateM σ) α}
    {f : α → ExceptT Failure (StateM σ) β} {s next : σ} {b : β} :
    reply (x >>= f) s = (.ok b, next) ↔
      ∃ a middle, reply x s = (.ok a, middle) ∧ reply (f a) middle = (.ok b, next) := by
  rw [reply_bind]
  rcases reply x s with ⟨failure | a, middle⟩
  · simp
  · constructor
    · exact fun h ↦ ⟨a, middle, rfl, h⟩
    · rintro ⟨_, _, ⟨⟩, h⟩
      exact h

theorem reply_bind_of_ok {x : ExceptT Failure (StateM σ) α}
    (f : α → ExceptT Failure (StateM σ) β) {s next : σ} {a : α} (h : reply x s = (.ok a, next)) :
    reply (x >>= f) s = reply (f a) next := by
  rw [reply_bind, h]

namespace Api

/-- The listing of a place always succeeds, with the same rows of children. -/
def Lists (api : Api (StateM σ)) (node : Node) (rows : List Item) : Prop :=
  ∀ s, (reply (node.children api) s).1 = .ok rows

theorem Lists.reply_children {api : Api (StateM σ)} {node : Node} {rows : List Item}
    (h : api.Lists node rows) (s : σ) :
    reply (node.children api) s = (.ok rows, (reply (node.children api) s).2) :=
  Prod.ext (h s) rfl

theorem Lists.reply_items {api : Api (StateM σ)} {node : Node} {rows : List Item}
    (h : api.Lists node rows) (s : σ) :
    ∃ next, reply (node.items api) s = (.ok (node.listing rows), next) := by
  refine ⟨(reply (node.children api) s).2, ?_⟩
  rw [Node.items, reply_bind, h.reply_children]
  rfl

/-- Every listing succeeds, and the rows of a place never change. -/
def Steady (api : Api (StateM σ)) (rows : Node → List Item) : Prop :=
  ∀ node s, (reply (node.children api) s).1 = .ok (rows node)

variable {api : Api (StateM σ)} {rows : Node → List Item}

theorem Steady.lists (h : api.Steady rows) (node : Node) : api.Lists node (rows node) := h node

theorem Steady.reply_items (h : api.Steady rows) (node : Node) (s : σ) :
    ∃ next, reply (node.items api) s = (.ok (node.listing (rows node)), next) :=
  (h.lists node).reply_items s

end Api

/-! ### Children -/

/-- The space that a place lies in. -/
def Node.space? : Node → Option Space
  | .root => none
  | .organization _ => none
  | .space s => some s
  | .group g => some g.space
  | .controlPlane c => some c.group.space

/-- The places that can be listed below a place, with their names. -/
inductive Node.IsChild : Node → String → Node → Prop
  | organization (o : Organization) : IsChild .root o.name (.organization o)
  | space (o : Organization) (s : Space) : IsChild (.organization o) s.name (.space s)
  | group (s : Space) (name : String) : IsChild (.space s) name (.group { space := s, name })
  | controlPlane (g : Group) (name : String) :
      IsChild (.group g) name (.controlPlane { group := g, name })

/-- Rows that are made one by one of an answer are those of children. -/
theorem Item.exists_child_of_answer {x : ExceptT Failure (StateM σ) (List α)} {text : α → String}
    {child : α → Node} {s next : σ} {rows : List Item}
    (h : reply (do
      let l ← x
      pure (l.map fun a ↦ Item.child (text a) (child a))) s = (.ok rows, next))
    {row : Item} (hrow : row ∈ rows) : ∃ a, row = Item.child (text a) (child a) := by
  obtain ⟨l, middle, -, hl⟩ := reply_bind_eq_ok_iff.1 h
  cases hl
  obtain ⟨a, -, rfl⟩ := List.mem_map.1 hrow
  exact ⟨a, rfl⟩

theorem Node.exists_child_of_children {api : Api (StateM σ)} {node : Node} {s next : σ}
    {rows : List Item} (h : reply (node.children api) s = (.ok rows, next)) {row : Item}
    (hrow : row ∈ rows) : ∃ name below, row = Item.child name below ∧ node.IsChild name below := by
  cases node with
  | root =>
    obtain ⟨o, rfl⟩ := Item.exists_child_of_answer h hrow
    exact ⟨_, _, rfl, .organization o⟩
  | organization o =>
    obtain ⟨s, rfl⟩ := Item.exists_child_of_answer h hrow
    exact ⟨_, _, rfl, .space o s⟩
  | space s =>
    obtain ⟨name, rfl⟩ := Item.exists_child_of_answer h hrow
    exact ⟨_, _, rfl, .group s name⟩
  | group g =>
    obtain ⟨name, rfl⟩ := Item.exists_child_of_answer h hrow
    exact ⟨_, _, rfl, .controlPlane g name⟩
  | controlPlane c =>
    cases h
    cases hrow

theorem Api.Lists.exists_child {api : Api (StateM σ)} {node : Node} {rows : List Item}
    (h : api.Lists node rows) (s : σ) {row : Item} (hrow : row ∈ rows) :
    ∃ name below, row = Item.child name below ∧ node.IsChild name below :=
  Node.exists_child_of_children (h.reply_children s) hrow

end Wayfinder
