import Wayfinder.Browse.Session
import Wayfinder.Place.Walk
import Wayfinder.Proofs.Asking
import Mathlib.Data.List.Nodup

/-!
Browsing leads where walking leads. Main statement: when listings never change and names can stand
in a path, the place shown after any moves is the place that the path of those moves leads to, from
the same start (`walk_of_moves`).

The two are tied together one move at a time: a move that leads anywhere is one step of a path
(`step_of_move`), and a move that leads nowhere is none.
-/

set_option autoImplicit false
set_option relaxedAutoImplicit false

namespace Wayfinder

/-! ### Paths of names -/

/-- A name that a path can hold as a step to a child. -/
structure IsChildStep (name : String) : Prop where
  nonempty : name ≠ ""
  whole : '/' ∉ name.toList
  ne_stay : name ≠ "."
  ne_up : name ≠ ".."

instance (name : String) : Decidable (IsChildStep name) :=
  decidable_of_iff (name ≠ "" ∧ '/' ∉ name.toList ∧ name ≠ "." ∧ name ≠ "..")
    ⟨fun h ↦ ⟨h.1, h.2.1, h.2.2.1, h.2.2.2⟩, fun h ↦ ⟨h.nonempty, h.whole, h.ne_stay, h.ne_up⟩⟩

/-- The path of the given steps. -/
def pathOf (names : List String) : String := String.ofList (Text.join '/' (names.map String.toList))

theorem Text.pieces_join {sep : Char} {l : List (List Char)} (hne : l ≠ [])
    (h : ∀ piece ∈ l, sep ∉ piece) : Text.pieces sep (Text.join sep l) = l := by
  induction l with
  | nil => exact absurd rfl hne
  | cons piece more ih =>
    have hpiece := Text.pieces_of_not_mem (h piece List.mem_cons_self)
    cases more with
    | nil => exact hpiece
    | cons next more =>
      have hmore := ih (List.cons_ne_nil _ _) fun other hother ↦
        h other (List.mem_cons_of_mem _ hother)
      have hjoin : Text.join sep (piece :: next :: more) =
          piece ++ sep :: Text.join sep (next :: more) := rfl
      rw [hjoin, Text.pieces_append, hpiece, hmore]
      rfl

/-- A step of a path: to a child, or up. -/
def IsStep (name : String) : Prop := name = ".." ∨ IsChildStep name

theorem IsStep.whole {name : String} (h : IsStep name) : '/' ∉ name.toList := by
  rcases h with rfl | hchild
  · decide
  · exact hchild.whole

theorem IsStep.nonempty {name : String} (h : IsStep name) : name ≠ "" := by
  rcases h with rfl | hchild
  · decide
  · exact hchild.nonempty

theorem IsStep.leads {name : String} (h : IsStep name) : (!(name == "" || name == ".")) = true := by
  rcases h with rfl | hchild
  · decide
  · simp [hchild.nonempty, hchild.ne_stay]

theorem Node.steps_pathOf {names : List String} (h : ∀ name ∈ names, IsStep name) :
    Node.steps (pathOf names) = names := by
  unfold Node.steps pathOf Text.split
  rw [String.toList_ofList]
  cases names with
  | nil => decide
  | cons first rest =>
    have hpieces : Text.pieces '/' (Text.join '/' ((first :: rest).map String.toList)) =
        (first :: rest).map String.toList := by
      refine Text.pieces_join (by simp) fun piece hpiece ↦ ?_
      obtain ⟨name, hname, rfl⟩ := List.mem_map.1 hpiece
      exact (h name hname).whole
    rw [hpieces, List.map_map]
    have hid : (first :: rest).map (String.ofList ∘ String.toList) = first :: rest := by
      simp [Function.comp_def]
    rw [hid, List.filter_eq_self]
    exact fun name hname ↦ (h name hname).leads

theorem Text.head?_join {sep : Char} {piece : List Char} (hpiece : piece ≠ [])
    (more : List (List Char)) : (Text.join sep (piece :: more)).head? = piece.head? := by
  cases more with
  | nil => rfl
  | cons next more =>
    cases piece with
    | nil => exact absurd rfl hpiece
    | cons c piece => rfl

theorem Node.isAbsolute_pathOf {names : List String} (h : ∀ name ∈ names, IsStep name) :
    Node.isAbsolute (pathOf names) = false := by
  unfold Node.isAbsolute pathOf
  rw [String.toList_ofList]
  cases names with
  | nil => rfl
  | cons first rest =>
    have hfirst := h first List.mem_cons_self
    rw [List.map_cons, Text.head?_join (by simpa using hfirst.nonempty), beq_eq_false_iff_ne]
    exact fun heq ↦ hfirst.whole (List.mem_of_head? heq)

namespace Browse

variable {σ : Type}

/-! ### Moves -/

/-- What the operator chooses in order to get to another place. -/
inductive Move
  /-- Entering the row at a position. -/
  | enter (position : Nat)
  | back
  deriving DecidableEq, Repr

/-- The choice that makes a move. -/
def Move.selection : Move → Selection
  | .enter position => .enter position
  | .back => .back

namespace Session

/-- The step of a path that does what a move does; none for a move that leads nowhere. -/
def step? (session : Session) : Move → Option String
  | .enter position => (session.items[position]?).bind fun row ↦
      row.target.map fun _ ↦ if row.isUp then ".." else row.text
  | .back => session.node.parent?.map fun _ ↦ ".."

variable {api : Api (StateM σ)} {writer : Writer (StateM σ)} {display : Display (StateM σ)}

/-- Shows a session and does what is chosen there. -/
def turn (api : Api (StateM σ)) (writer : Writer (StateM σ)) (display : Display (StateM σ))
    (session : Session) (selection : Selection) :
    ExceptT Failure (StateM σ) (Session ⊕ Option Switched) := do
  display.present session.screen
  session.choose api writer display selection

theorem proceed_cons (session : Session) (selection : Selection)
    (rest : List (Except Failure Selection)) :
    session.proceed api writer display (.ok selection :: rest) =
      session.turn api writer display selection >>= fun next ↦
        match next with
        | .inl next => next.proceed api writer display rest
        | .inr ended => pure ended := by
  rw [proceed, turn]
  exact (bind_assoc _ _ _).symm

/-- From one session and state to another by moves. Those that lead anywhere make the steps of a
path. -/
inductive Moves (api : Api (StateM σ)) (writer : Writer (StateM σ))
    (display : Display (StateM σ)) :
    Session → σ → List Move → List String → Session → σ → Prop
  | done (session : Session) (s : σ) : Moves api writer display session s [] [] session s
  | turn {session next last : Session} {s middle after : σ} {move : Move} {rest : List Move}
      {steps : List String}
      (shown : reply (session.turn api writer display move.selection) s = (.ok (.inl next), middle))
      (further : Moves api writer display next middle rest steps last after) :
      Moves api writer display session s (move :: rest) ((session.step? move).toList ++ steps)
        last after

/-- After moves a run goes on from the session that they lead to. -/
theorem Moves.proceed {session last : Session} {s after : σ} {moves : List Move}
    {steps : List String} (h : Moves api writer display session s moves steps last after)
    (rest : List (Except Failure Selection)) :
    reply (session.proceed api writer display
      (moves.map (fun move ↦ .ok move.selection) ++ rest)) s =
      reply (last.proceed api writer display rest) after := by
  induction h with
  | done session s => rfl
  | turn shown further ih =>
    rw [List.map_cons, List.cons_append, proceed_cons, reply_bind_of_ok _ shown]
    exact ih

/-! ### One move, one step -/

variable {rows : Node → List Item} {session next : Session} {s after : σ}

/-- The rows shown are those of the place. -/
def Shows (rows : Node → List Item) (session : Session) : Prop :=
  session.items = session.node.listing (rows session.node)

theorem reply_start (hsteady : api.Steady rows) {node : Node}
    (h : reply (start api display node) s = (.ok session, after)) :
    session.node = node ∧ session.Shows rows := by
  unfold start at h
  obtain ⟨_, first, -, h⟩ := reply_bind_eq_ok_iff.1 h
  obtain ⟨items, second, hitems, h⟩ := reply_bind_eq_ok_iff.1 h
  obtain ⟨third, hsame⟩ := hsteady.reply_items node first
  rw [hsame] at hitems
  cases hitems
  cases h
  exact ⟨rfl, rfl⟩

theorem reply_goTo (hsteady : api.Steady rows) {node : Node}
    (h : reply (session.goTo api display node) s = (.ok next, after)) :
    next.node = node ∧ next.Shows rows := by
  unfold goTo at h
  obtain ⟨_, first, -, h⟩ := reply_bind_eq_ok_iff.1 h
  obtain ⟨answer, second, hlifted, h⟩ := reply_bind_eq_ok_iff.1 h
  obtain ⟨third, hsame⟩ := hsteady.reply_items node first
  rw [reply_lift_run hsame] at hlifted
  cases hlifted
  cases h
  exact ⟨rfl, rfl⟩

theorem choose_move (session : Session) (move : Move) :
    session.choose api writer display move.selection =
      match session.target? move.selection with
      | none => pure (.inl { session with status := none })
      | some node => session.goTo api display node >>= fun next ↦ pure (.inl next) := by
  cases move <;> rfl

/-- A move stays where it leads nowhere, and shows the place that it leads to otherwise. -/
theorem reply_turn (hsteady : api.Steady rows) {move : Move}
    (h : reply (session.turn api writer display move.selection) s = (.ok (.inl next), after)) :
    (session.target? move.selection = none ∧ next = { session with status := none }) ∨
      (session.target? move.selection = some next.node ∧ next.Shows rows) := by
  unfold turn at h
  obtain ⟨_, first, -, h⟩ := reply_bind_eq_ok_iff.1 h
  rw [choose_move] at h
  cases htarget : session.target? move.selection with
  | none =>
    rw [htarget] at h
    cases h
    exact Or.inl ⟨rfl, rfl⟩
  | some node =>
    rw [htarget] at h
    obtain ⟨there, second, hgone, h⟩ := reply_bind_eq_ok_iff.1 h
    cases h
    obtain ⟨hnode, hshows⟩ := reply_goTo hsteady hgone
    exact Or.inr ⟨by rw [hnode], hshows⟩

theorem step?_of_no_target {move : Move} (h : session.target? move.selection = none) :
    session.step? move = none := by
  cases move with
  | enter position =>
    have htarget : (session.items[position]?).bind (·.target) = none := h
    rw [step?, Option.bind_eq_none_iff]
    intro row hrow
    rw [hrow, Option.bind_some] at htarget
    rw [htarget, Option.map_none]
  | back =>
    have htarget : session.node.parent? = none := h
    rw [step?, htarget, Option.map_none]

/-- A display that never fails. -/
structure Willing (display : Display (StateM σ)) : Prop where
  busy : ∀ title s, ∃ next, reply (display.busy title) s = (.ok (), next)
  present : ∀ screen s, ∃ next, reply (display.present screen) s = (.ok (), next)

/-- The session after a move, when listings succeed. -/
def moved (rows : Node → List Item) (session : Session) (move : Move) : Session :=
  match session.target? move.selection with
  | none => { session with status := none }
  | some node => { node, items := node.listing (rows node) }

/-- The steps of the path that moves make, when listings succeed. -/
def trail (rows : Node → List Item) (session : Session) : List Move → List String
  | [] => []
  | move :: rest => (session.step? move).toList ++ (session.moved rows move).trail rows rest

theorem exists_turn (hsteady : api.Steady rows) (hdisplay : Willing display) (session : Session)
    (move : Move) (s : σ) : ∃ after,
      reply (session.turn api writer display move.selection) s =
        (.ok (.inl (session.moved rows move)), after) := by
  obtain ⟨first, hpresent⟩ := hdisplay.present session.screen s
  rw [turn, reply_bind_of_ok _ hpresent, choose_move]
  unfold moved
  cases session.target? move.selection with
  | none => exact ⟨first, rfl⟩
  | some node =>
    obtain ⟨second, hbusy⟩ := hdisplay.busy node.breadcrumbs first
    obtain ⟨third, hitems⟩ := hsteady.reply_items node second
    refine ⟨third, ?_⟩
    have hgone : reply (session.goTo api display node) first =
        (.ok { node, items := node.listing (rows node) }, third) := by
      rw [goTo, reply_bind_of_ok _ hbusy, reply_bind_of_ok _ (reply_lift_run hitems)]
      rfl
    simp only
    rw [reply_bind_of_ok _ hgone]
    rfl

/-- On a display that never fails all moves can be made. -/
theorem exists_moves (hsteady : api.Steady rows) (hdisplay : Willing display) (session : Session)
    (moves : List Move) (s : σ) : ∃ after,
      Moves api writer display session s moves (session.trail rows moves)
        (moves.foldl (moved rows) session) after := by
  induction moves generalizing session s with
  | nil => exact ⟨s, .done session s⟩
  | cons move rest ih =>
    obtain ⟨middle, hturn⟩ := exists_turn hsteady hdisplay session move s
    obtain ⟨after, hrest⟩ := ih (session.moved rows move) middle
    exact ⟨after, .turn hturn hrest⟩

end Session

end Browse

namespace Node

variable {σ : Type} {api : Api (StateM σ)} {rows : Node → List Item} {node child : Node}

/-- The rows that lead down have names that a path can hold, different ones at each place. -/
structure Walkable (rows : Node → List Item) : Prop where
  names : ∀ node, ∀ row ∈ rows node, IsChildStep row.text
  distinct : ∀ node, ((rows node).map Item.text).Nodup

theorem reply_step_up {parent : Node} (h : node.parent? = some parent) (path : String) (s : σ) :
    reply (node.step api path "..") s = (.ok parent, s) := by
  rw [step, if_pos rfl, h]
  rfl

theorem mem_listing {children : List Item} {row : Item} (h : row ∈ node.listing children) :
    (∃ parent, node.parent? = some parent ∧ row = Item.up parent) ∨
      (∃ text, row = Item.placeholder text) ∨ row ∈ children := by
  unfold listing at h
  simp only [List.mem_append] at h
  rcases h with (hup | hnothing) | hchild
  · cases hparent : node.parent? with
    | none => simp [hparent] at hup
    | some parent =>
      rw [hparent] at hup
      exact Or.inl ⟨parent, rfl, List.mem_singleton.1 hup⟩
  · cases htext : node.emptyText? with
    | none => simp [htext] at hnothing
    | some text =>
      simp only [htext] at hnothing
      by_cases hempty : children.isEmpty = true
      · rw [if_pos hempty] at hnothing
        exact Or.inr (Or.inl ⟨text, List.mem_singleton.1 hnothing⟩)
      · rw [if_neg hempty] at hnothing
        cases hnothing
  · exact Or.inr (Or.inr ((perm_sortRows _).mem_iff.1 hchild))

/-- The row found by the name of a child is that of a child of this name. -/
theorem exists_row_named (node : Node) {children : List Item} {name : String}
    (hrow : Item.child name child ∈ children) :
    ∃ row ∈ children, row.text = name ∧ childNamed? name (node.listing children) = row.target := by
  unfold childNamed?
  have hlisted : Item.child name child ∈ node.listing children :=
    List.mem_append_right _ ((perm_sortRows _).mem_iff.2 hrow)
  cases hfound : (node.listing children).find? fun item ↦
      !item.isUp && !item.isPlaceholder && item.text == name with
  | none =>
    have hnot := List.find?_eq_none.1 hfound _ hlisted
    simp [Item.child] at hnot
  | some found =>
    have hkind := List.find?_some hfound
    rcases mem_listing (List.mem_of_find?_eq_some hfound) with ⟨parent, -, rfl⟩ | ⟨text, rfl⟩ |
      hmem
    · simp [Item.up] at hkind
    · simp [Item.placeholder] at hkind
    · simp only [Bool.and_eq_true, beq_iff_eq] at hkind
      exact ⟨found, hmem, hkind.2, rfl⟩

/-- Whatever else is listed, the row found by the name of a child is that of the child. -/
theorem childNamed?_listing {children : List Item} {name : String}
    (hdistinct : (children.map Item.text).Nodup) (hrow : Item.child name child ∈ children) :
    childNamed? name (node.listing children) = some child := by
  obtain ⟨row, hmem, htext, hfound⟩ := exists_row_named node hrow
  rw [hfound, List.inj_on_of_nodup_map hdistinct hmem hrow htext]
  rfl

theorem reply_step_down {children : List Item} (hlists : api.Lists node children)
    (hdistinct : (children.map Item.text).Nodup) {name : String} (hname : name ≠ "..")
    (hrow : Item.child name child ∈ children) (path : String) (s : σ) :
    ∃ next, reply (node.step api path name) s = (.ok child, next) := by
  obtain ⟨next, hitems⟩ := hlists.reply_items s
  refine ⟨next, ?_⟩
  rw [step, if_neg hname, reply_bind_of_ok _ hitems, childNamed?_listing hdistinct hrow]
  rfl

end Node

namespace Browse.Session

variable {σ : Type} {api : Api (StateM σ)} {writer : Writer (StateM σ)}
  {display : Display (StateM σ)} {rows : Node → List Item} {session : Session}

/-- A move that leads to a place makes a step of a path, which leads to the same place. -/
theorem step_of_move (hsteady : api.Steady rows) (hrows : Node.Walkable rows) (asked : σ)
    (hshows : session.Shows rows) {move : Move} {node : Node}
    (h : session.target? move.selection = some node) :
    ∃ name, session.step? move = some name ∧ IsStep name ∧
      ∀ path s, ∃ next, reply (session.node.step api path name) s = (.ok node, next) := by
  cases move with
  | back =>
    have hparent : session.node.parent? = some node := h
    refine ⟨"..", ?_, Or.inl rfl, fun path s ↦ ⟨s, Node.reply_step_up hparent path s⟩⟩
    rw [step?, hparent, Option.map_some]
  | enter position =>
    have htarget : (session.items[position]?).bind (·.target) = some node := h
    obtain ⟨row, hposition, hrow⟩ := Option.bind_eq_some_iff.1 htarget
    have hstep : session.step? (.enter position) = some (if row.isUp then ".." else row.text) := by
      rw [step?, hposition, Option.bind_some, hrow, Option.map_some]
    have hlisted := List.mem_of_getElem? hposition
    rw [hshows] at hlisted
    rcases Node.mem_listing hlisted with ⟨parent, hparent, rfl⟩ | ⟨text, rfl⟩ | hchild
    · cases hrow
      exact ⟨"..", hstep, Or.inl rfl, fun path s ↦ ⟨s, Node.reply_step_up hparent path s⟩⟩
    · cases hrow
    · obtain ⟨name, child, rfl, -⟩ := (hsteady.lists _).exists_child asked hchild
      cases hrow
      have hname := hrows.names _ _ hchild
      exact ⟨name, hstep, Or.inr hname, fun path s ↦ Node.reply_step_down (hsteady.lists _)
        (hrows.distinct _) hname.ne_up hchild path s⟩

theorem Moves.follow (hsteady : api.Steady rows) (hrows : Node.Walkable rows)
    {last : Session} {s after : σ} {moves : List Move} {steps : List String}
    (h : Moves api writer display session s moves steps last after) (hshows : session.Shows rows) :
    (∀ name ∈ steps, IsStep name) ∧ ∀ path s,
      (reply (session.node.follow api path steps) s).1 = .ok last.node := by
  induction h with
  | done session s => exact ⟨by simp, fun path s ↦ rfl⟩
  | @turn session next last s middle after move rest steps shown further ih =>
    rcases reply_turn hsteady shown with ⟨hnone, rfl⟩ | ⟨htarget, hnext⟩
    · rw [step?_of_no_target hnone]
      exact ih hshows
    · obtain ⟨hsteps, hfollow⟩ := ih hnext
      obtain ⟨name, hname, hstep, hreply⟩ := step_of_move hsteady hrows s hshows htarget
      rw [hname]
      refine ⟨?_, fun path s ↦ ?_⟩
      · intro other hother
        rcases List.mem_cons.1 hother with rfl | hrest
        · exact hstep
        · exact hsteps other hrest
      · obtain ⟨middle, hmiddle⟩ := hreply path s
        have hcons : ∀ steps : List String, (some name).toList ++ steps = name :: steps :=
          fun steps ↦ rfl
        rw [hcons, Node.follow, reply_bind_of_ok _ hmiddle]
        exact hfollow path middle

end Browse.Session

namespace Browse

variable {σ : Type}

/-- When listings never change, and the names of children can stand in a path, the session after any
moves is at the place that the path of those moves leads to. -/
theorem walk_of_moves (api : Api (StateM σ)) (writer : Writer (StateM σ))
    (display : Display (StateM σ)) (rows : Node → List Item) (start : Node) (moves : List Move)
    (steps : List String) (first last : Session) (s middle after : σ)
    (hsteady : api.Steady rows) (hrows : Node.Walkable rows)
    (hstart : reply (Session.start api display start) s = (.ok first, middle))
    (hmoves : Session.Moves api writer display first middle moves steps last after) :
    (∀ rest, reply (run api writer display start
        (moves.map (fun move ↦ .ok move.selection) ++ rest)) s =
      reply (last.proceed api writer display rest) after) ∧
    ∀ s, (reply (start.walk api (pathOf steps)) s).1 = .ok last.node := by
  obtain ⟨hnode, hshows⟩ := Session.reply_start hsteady hstart
  obtain ⟨hsteps, hfollow⟩ := hmoves.follow hsteady hrows hshows
  constructor
  · intro rest
    rw [run, reply_bind_of_ok _ hstart]
    exact hmoves.proceed rest
  · intro s
    rw [Node.walk, Node.isAbsolute_pathOf hsteps, Node.steps_pathOf hsteps, ← hnode]
    exact hfollow (pathOf steps) s

/-- The one space of an organization. -/
def onlySpace (organization : Organization) : Space where
  organization := some organization
  name := "eu"
  ingress := "eu.example"
  authorityData := none
  insecure := false
  user := {}

/-- Places with one child each; what has been shown is the state. -/
def atlas : Api (StateM (List String)) where
  skipsVerification := false
  organizations := pure [{ name := "acme" }]
  spaces organization := pure [onlySpace organization]
  groups _ := pure ["team"]
  controlPlanes _ := pure ["ctp"]
  ingress _ _ := throw (.api 404 "")

/-- The rows of those places. -/
def atlasRows : Node → List Item
  | .root => [.child "acme" (.organization { name := "acme" })]
  | .organization organization => [.child "eu" (.space (onlySpace organization))]
  | .space space => [.child "team" (.group { space, name := "team" })]
  | .group group => [.child "ctp" (.controlPlane { group, name := "ctp" })]
  | .controlPlane _ => []

theorem steady_atlas : atlas.Steady atlasRows := by
  intro node s
  cases node <;> rfl

theorem walkable_atlasRows : Node.Walkable atlasRows where
  names node row hrow := by
    have hacme : IsChildStep "acme" := by decide
    have heu : IsChildStep "eu" := by decide
    have hteam : IsChildStep "team" := by decide
    have hctp : IsChildStep "ctp" := by decide
    cases node with
    | root => exact List.mem_singleton.1 hrow ▸ hacme
    | organization organization => exact List.mem_singleton.1 hrow ▸ heu
    | space space => exact List.mem_singleton.1 hrow ▸ hteam
    | group group => exact List.mem_singleton.1 hrow ▸ hctp
    | controlPlane controlPlane => cases hrow
  distinct node := by cases node <;> simp [atlasRows]

/-- Keeps the titles of the screens. -/
def titles : Display (StateM (List String)) where
  busy _ := pure ()
  present screen := ExceptT.mk fun shown ↦ (.ok (), shown ++ [screen.title])

theorem willing_titles : Session.Willing titles where
  busy _ s := ⟨s, rfl⟩
  present screen s := ⟨s ++ [screen.title], rfl⟩

/-- Down to a space, up by the first row and by going back, once too often, into no row, and down
again. -/
theorem walk_of_moves_atlas :
    let writer : Writer (StateM (List String)) := { name := "up", write := fun _ ↦ pure () }
    let moves : List Move := [.enter 0, .enter 1, .enter 0, .back, .back, .enter 7, .enter 0]
    let steps : List String := ["acme", "eu", "..", "..", "acme"]
    atlas.Steady atlasRows ∧ Node.Walkable atlasRows ∧ ∃ first middle last after,
      reply (Session.start atlas titles .root) [] = (.ok first, middle) ∧
      Session.Moves atlas writer titles first middle moves steps last after ∧
      last.node = .organization { name := "acme" } ∧
      (reply (Node.root.walk atlas (pathOf steps)) []).1 = .ok (.organization { name := "acme" }) := by
  intro writer moves steps
  have hstart : reply (Session.start atlas titles .root) [] =
      (.ok { node := .root, items := Node.root.listing (atlasRows .root) }, []) := rfl
  obtain ⟨after, hmoves⟩ : ∃ after, Session.Moves atlas writer titles
      { node := .root, items := Node.root.listing (atlasRows .root) } [] moves _ _ after :=
    Session.exists_moves steady_atlas willing_titles _ moves []
  have hsteps : Session.trail atlasRows
      { node := .root, items := Node.root.listing (atlasRows .root) } moves = steps := by cbv
  have hnode : (moves.foldl (Session.moved atlasRows)
      { node := .root, items := Node.root.listing (atlasRows .root) }).node =
      .organization { name := "acme" } := by cbv
  rw [hsteps] at hmoves
  have hwalk := (walk_of_moves atlas writer titles atlasRows .root moves steps _ _ [] [] after
    steady_atlas walkable_atlasRows hstart hmoves).2 []
  rw [hnode] at hwalk
  exact ⟨steady_atlas, walkable_atlasRows, _, _, _, _, hstart, hmoves, hnode, hwalk⟩

end Browse

end Wayfinder
