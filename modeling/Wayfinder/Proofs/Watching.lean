import Wayfinder.Browse.Session
import Wayfinder.Proofs.Asking

/-!
Browsing under watch. What takes part in browsing is gathered in a crew, and each of its works can
be noted with its answer; the notes are kept with the latest first. Main statements: browsing with
the crew of a source of answers, a writer and a display is browsing with these (`run_crew`), and
being watched changes neither the answer nor what is left (`mirrors_run`).

Listing a place is a work of the crew, and not only the questions that it takes, since a place
without children is listed without a question.
-/

set_option autoImplicit false
set_option relaxedAutoImplicit false

namespace Wayfinder

/-- The question that is asked to list a place; none for what has no children. -/
def Node.question? : Node → Option Question
  | .root => some .organizations
  | .organization o => some (.spaces o)
  | .space s => some (.groups s)
  | .group g => some (.controlPlanes g)
  | .controlPlane _ => none

/-- The kubeconfig that is written to make a place the current target, if it can be. -/
def Node.offer? (name : String) (node : Node) : Option Kubeconfig :=
  if node.isAcceptable then node.kubeconfig? name else none

namespace Browse

/-! ### Crews -/

/-- What takes part in browsing: the display with its operator, and what lists and accepts
places. -/
structure Crew (m : Type → Type) where
  busy : String → ExceptT Failure m Unit
  /-- Shows a screen, to which the operator's answer is at hand. -/
  pick : Screen → Except Failure Selection → ExceptT Failure m Selection
  list : Node → ExceptT Failure m (List Item)
  accept : Node → ExceptT Failure m String

namespace Crew

variable {m : Type → Type} [Monad m]

/-- The session at a place, the listing of which has to succeed. -/
def start (crew : Crew m) (node : Node) : ExceptT Failure m Session := do
  crew.busy node.breadcrumbs
  let items ← crew.list node
  pure { node, items }

/-- Goes where a choice leads, if that can be listed. -/
def follow (crew : Crew m) (s : Session) :
    Option Node → ExceptT Failure m (Session ⊕ Option Switched)
  | none => pure (.inl { s with status := none })
  | some node => do
    crew.busy node.breadcrumbs
    match ← ExceptT.lift (crew.list node).run with
    | .ok items => pure (.inl { node, items })
    | .error failure =>
      pure (.inl { s with status := some (node.breadcrumbs ++ ": " ++ failure.message) })

/-- Makes the place of a session the current target, if it can be. -/
def settle (crew : Crew m) (s : Session) : ExceptT Failure m (Session ⊕ Option Switched) := do
  crew.busy s.node.breadcrumbs
  match ← ExceptT.lift (crew.accept s.node).run with
  | .ok message => pure (.inr (some { node := s.node, message }))
  | .error failure => pure (.inl { s with status := some failure.message })

/-- What becomes of a session with a choice: another session, or its end. -/
def turn (crew : Crew m) (s : Session) (selection : Selection) :
    ExceptT Failure m (Session ⊕ Option Switched) :=
  match selection with
  | .quit => pure (.inr none)
  | .accept => crew.settle s
  | selection => crew.follow s (s.target? selection)

/-- Goes on with a session over what the operator answers in turn; the operator leaves when there is
nothing more. -/
def proceed (crew : Crew m) (s : Session) :
    List (Except Failure Selection) → ExceptT Failure m (Option Switched)
  | [] => do
    let _ ← crew.pick s.screen (.ok .quit)
    pure none
  | choice :: rest => do
    let selection ← crew.pick s.screen choice
    match ← crew.turn s selection with
    | .inl next => crew.proceed next rest
    | .inr ended => pure ended

/-- Browses from a place. -/
def run (crew : Crew m) (start : Node) (script : List (Except Failure Selection)) :
    ExceptT Failure m (Option Switched) := do
  let session ← crew.start start
  crew.proceed session script

end Crew

/-- The crew of a source of answers, a writer and a display. -/
def crew {m : Type → Type} [Monad m] (api : Api m) (writer : Writer m) (display : Display m) :
    Crew m where
  busy := display.busy
  pick screen choice := do
    display.present screen
    match choice with
    | .ok selection => pure selection
    | .error failure => throw failure
  list node := node.items api
  accept node := node.accept writer

section Crew

variable {m : Type → Type} [Monad m] [LawfulMonad m] (api : Api m) (writer : Writer m)
  (display : Display m)

theorem settle_crew (s : Session) :
    (crew api writer display).settle s = s.choose api writer display .accept := by
  simp only [Crew.settle, Session.choose, Session.accept, bind_assoc]
  refine congrArg (display.busy s.node.breadcrumbs >>= ·) (funext fun _ ↦
    congrArg (ExceptT.lift (s.node.accept writer).run >>= ·) (funext fun answer ↦ ?_))
  cases answer with
  | error failure => simp only [pure_bind]
  | ok message => simp only [pure_bind]

theorem follow_crew (s : Session) (target : Option Node) :
    (crew api writer display).follow s target =
      (match target with
      | none => pure (.inl { s with status := none })
      | some node => do
        let next ← s.goTo api display node
        pure (.inl next)) := by
  cases target with
  | none => rfl
  | some node =>
    simp only [Crew.follow, Session.goTo, bind_assoc]
    refine congrArg (display.busy node.breadcrumbs >>= ·) (funext fun _ ↦
      congrArg (ExceptT.lift (node.items api).run >>= ·) (funext fun answer ↦ ?_))
    cases answer with
    | error failure => simp only [pure_bind]
    | ok items => simp only [pure_bind]

theorem turn_crew (s : Session) (selection : Selection) :
    (crew api writer display).turn s selection = s.choose api writer display selection := by
  cases selection with
  | enter position => exact follow_crew api writer display s _
  | back => exact follow_crew api writer display s _
  | accept => exact settle_crew api writer display s
  | quit => rfl

theorem proceed_crew (s : Session) (script : List (Except Failure Selection)) :
    (crew api writer display).proceed s script = s.proceed api writer display script := by
  induction script generalizing s with
  | nil => simp only [Crew.proceed, Session.proceed, crew, bind_assoc, pure_bind]
  | cons choice rest ih =>
    cases choice with
    | error failure =>
      simp only [Crew.proceed, Session.proceed, crew, bind_assoc]
      exact congrArg (display.present s.screen >>= ·) (funext fun _ ↦ ExceptT.ext (by simp))
    | ok selection =>
      have hpick : (crew api writer display).pick s.screen (.ok selection) =
          display.present s.screen >>= fun _ ↦ pure selection := rfl
      rw [Crew.proceed, hpick, bind_assoc, Session.proceed]
      refine congrArg (display.present s.screen >>= ·) (funext fun _ ↦ ?_)
      rw [pure_bind, turn_crew]
      refine congrArg (s.choose api writer display selection >>= ·) (funext fun answer ↦ ?_)
      cases answer with
      | inl next => exact ih next
      | inr ended => rfl

/-- Browsing is what the crew of the same source of answers, writer and display does. -/
theorem run_crew (start : Node) (script : List (Except Failure Selection)) :
    (crew api writer display).run start script = run api writer display start script := by
  simp only [Crew.run, run, proceed_crew]
  rfl

end Crew

/-! ### Notes -/

/-- What can be noted in the course of browsing, with what was answered. -/
inductive Event
  /-- It was shown that something is on its way. -/
  | busy (title : String) (answer : Except Failure Unit)
  /-- A screen was shown, and the operator chose from it. -/
  | picked (screen : Screen) (answer : Except Failure Selection)
  /-- A question about places was asked. -/
  | asked (question : Question)
  /-- A place was listed. -/
  | listed (node : Node) (answer : Except Failure (List Item))
  /-- A kubeconfig was to be written. -/
  | wrote (config : Kubeconfig) (answer : Except Failure Unit)
  /-- A place was to become the current target. -/
  | accepted (node : Node) (answer : Except Failure String)

variable {σ α β : Type}

/-- Work among notes that leaves them alone. -/
def aside (x : ExceptT Failure (StateM σ) α) : ExceptT Failure (StateM (σ × List Event)) α :=
  ExceptT.mk fun s ↦
    let r := reply x s.1
    (r.1, r.2, s.2)

/-- Work that is noted with its answer. -/
def noting (event : Except Failure α → Event) (x : ExceptT Failure (StateM (σ × List Event)) α) :
    ExceptT Failure (StateM (σ × List Event)) α :=
  ExceptT.mk fun s ↦
    let r := reply x s
    (r.1, r.2.1, event r.1 :: r.2.2)

/-- The same source of answers, which notes what it is asked. -/
def watchedApi (api : Api (StateM σ)) : Api (StateM (σ × List Event)) where
  skipsVerification := api.skipsVerification
  organizations := noting (fun _ ↦ .asked .organizations) (aside api.organizations)
  spaces organization :=
    noting (fun _ ↦ .asked (.spaces organization)) (aside (api.spaces organization))
  groups space := noting (fun _ ↦ .asked (.groups space)) (aside (api.groups space))
  controlPlanes group :=
    noting (fun _ ↦ .asked (.controlPlanes group)) (aside (api.controlPlanes group))
  ingress cluster user :=
    noting (fun _ ↦ .asked (.ingress cluster user)) (aside (api.ingress cluster user))

/-- The same writer, which notes what it is asked to write. -/
def watchedWriter (writer : Writer (StateM σ)) : Writer (StateM (σ × List Event)) where
  name := writer.name
  write config := noting (.wrote config) (aside (writer.write config))

/-- The crew of a source of answers, a writer and a display, in which each notes what it does. -/
def watch (api : Api (StateM σ)) (writer : Writer (StateM σ)) (display : Display (StateM σ)) :
    Crew (StateM (σ × List Event)) where
  busy title := noting (.busy title) (aside (display.busy title))
  pick screen choice :=
    noting (.picked screen) (aside ((crew api writer display).pick screen choice))
  list node := noting (.listed node) (node.items (watchedApi api))
  accept node := noting (.accepted node) (node.accept (watchedWriter writer))

/-- Work that goes as other work does, and puts down notes that follow from the answer. -/
def Notes (events : Except Failure α → List Event)
    (x : ExceptT Failure (StateM (σ × List Event)) α) (y : ExceptT Failure (StateM σ) α) : Prop :=
  ∀ s past, reply x (s, past) = ((reply y s).1, (reply y s).2, events (reply y s).1 ++ past)

section Notes

variable {events : Except Failure α → List Event} {x : ExceptT Failure (StateM (σ × List Event)) α}
  {y : ExceptT Failure (StateM σ) α}

theorem notes_aside (x : ExceptT Failure (StateM σ) α) : Notes (fun _ ↦ []) (aside x) x :=
  fun _ _ ↦ rfl

theorem Notes.noting (h : Notes events x y) (event : Except Failure α → Event) :
    Notes (fun answer ↦ event answer :: events answer) (noting event x) y := by
  intro s past
  have hnoting : reply (Browse.noting event x) (s, past) = ((reply x (s, past)).1,
      (reply x (s, past)).2.1, event (reply x (s, past)).1 :: (reply x (s, past)).2.2) := rfl
  rw [hnoting, h s past]
  rfl

theorem notes_noting_aside (event : Except Failure α → Event) (x : ExceptT Failure (StateM σ) α) :
    Notes (fun answer ↦ [event answer]) (noting event (aside x)) x :=
  (notes_aside x).noting event

/-- Notes stay as they are when something is made of the answer. -/
theorem Notes.map {question : List Event} (h : Notes (fun _ ↦ question) x y) (f : α → β) :
    Notes (fun _ ↦ question) (x >>= fun a ↦ pure (f a)) (y >>= fun a ↦ pure (f a)) := by
  intro s past
  rw [reply_bind, reply_bind, h s past]
  rcases reply y s with ⟨failure | a, next⟩
  · rfl
  · rfl

end Notes

theorem notes_items (api : Api (StateM σ)) (node : Node) :
    Notes (fun _ ↦ node.question?.toList.map .asked) (node.items (watchedApi api))
      (node.items api) := by
  refine Notes.map ?_ node.listing
  cases node with
  | root => exact (notes_noting_aside _ _).map _
  | organization o => exact (notes_noting_aside _ _).map _
  | space s => exact (notes_noting_aside _ _).map _
  | group g => exact (notes_noting_aside _ _).map _
  | controlPlane c => exact fun _ _ ↦ rfl

theorem notes_accept (writer : Writer (StateM σ)) (node : Node) :
    Notes
      (fun answer ↦ (node.offer? writer.name).toList.map
        fun config ↦ .wrote config (answer.map fun _ ↦ ()))
      (node.accept (watchedWriter writer)) (node.accept writer) := by
  intro s past
  have hname : (watchedWriter writer).name = writer.name := rfl
  unfold Node.accept
  rw [hname, ← Node.offer?]
  cases node.offer? writer.name with
  | none => rfl
  | some config =>
    have hwrite := notes_noting_aside (.wrote config) (writer.write config) s past
    have hwatched : (watchedWriter writer).write config =
      noting (.wrote config) (aside (writer.write config)) := rfl
    simp only [reply_bind, hwatched, hwrite]
    rcases reply (writer.write config) s with ⟨failure | _, next⟩
    · rfl
    · rfl

/-- A place that offers no kubeconfig is not accepted. -/
theorem reply_accept_of_none {writer : Writer (StateM σ)} {node : Node}
    (h : node.offer? writer.name = none) (s : σ) :
    ∃ failure, reply (node.accept writer) s = (.error failure, s) := by
  unfold Node.accept
  rw [← Node.offer?, h]
  exact ⟨_, rfl⟩

/-! ### Being watched -/

/-- Work among notes that goes as other work does, whatever is put down. -/
def Mirrors (x : ExceptT Failure (StateM (σ × List Event)) α) (y : ExceptT Failure (StateM σ) α) :
    Prop :=
  ∀ s past, ((reply x (s, past)).1, (reply x (s, past)).2.1) = reply y s

section Mirrors

variable {x : ExceptT Failure (StateM (σ × List Event)) α} {y : ExceptT Failure (StateM σ) α}

theorem Notes.mirrors {events : Except Failure α → List Event} (h : Notes events x y) :
    Mirrors x y := by
  intro s past
  rw [h s past]

theorem Mirrors.reply_eq (h : Mirrors x y) {s next : σ} {past log : List Event}
    {answer : Except Failure α} (hx : reply x (s, past) = (answer, next, log)) :
    reply y s = (answer, next) := by
  rw [← h s past, hx]

theorem mirrors_pure (a : α) :
    Mirrors (pure a : ExceptT Failure (StateM (σ × List Event)) α) (pure a) :=
  fun _ _ ↦ rfl

theorem Mirrors.bind {f : α → ExceptT Failure (StateM (σ × List Event)) β}
    {g : α → ExceptT Failure (StateM σ) β} (h : Mirrors x y) (hf : ∀ a, Mirrors (f a) (g a)) :
    Mirrors (x >>= f) (y >>= g) := by
  intro s past
  rw [reply_bind, reply_bind, ← h s past]
  rcases reply x (s, past) with ⟨failure | a, next, later⟩
  · rfl
  · exact hf a next later

theorem Mirrors.lift (h : Mirrors x y) : Mirrors (ExceptT.lift x.run) (ExceptT.lift y.run) := by
  intro s past
  have hlift : ∀ {τ γ : Type} (z : ExceptT Failure (StateM τ) γ) (t : τ),
      reply (ExceptT.lift z.run) t = (.ok (reply z t).1, (reply z t).2) := fun _ _ ↦ rfl
  rw [hlift, hlift, ← h s past]

end Mirrors

namespace Crew

/-- Crews of which one does among notes what the other does. -/
structure Mirrors (watched : Crew (StateM (σ × List Event))) (crew : Crew (StateM σ)) : Prop where
  busy : ∀ title, Browse.Mirrors (watched.busy title) (crew.busy title)
  pick : ∀ screen choice, Browse.Mirrors (watched.pick screen choice) (crew.pick screen choice)
  list : ∀ node, Browse.Mirrors (watched.list node) (crew.list node)
  accept : ∀ node, Browse.Mirrors (watched.accept node) (crew.accept node)

namespace Mirrors

variable {watched : Crew (StateM (σ × List Event))} {crew : Crew (StateM σ)}
  (h : Mirrors watched crew)

include h

theorem start (node : Node) : Browse.Mirrors (watched.start node) (crew.start node) :=
  (h.busy _).bind fun _ ↦ (h.list node).bind fun _ ↦ mirrors_pure _

theorem follow (s : Session) (target : Option Node) :
    Browse.Mirrors (watched.follow s target) (crew.follow s target) := by
  cases target with
  | none => exact mirrors_pure _
  | some node =>
    refine (h.busy _).bind fun _ ↦ (h.list node).lift.bind fun answer ↦ ?_
    cases answer with
    | error failure => exact mirrors_pure _
    | ok items => exact mirrors_pure _

theorem settle (s : Session) : Browse.Mirrors (watched.settle s) (crew.settle s) := by
  refine (h.busy _).bind fun _ ↦ (h.accept s.node).lift.bind fun answer ↦ ?_
  cases answer with
  | error failure => exact mirrors_pure _
  | ok message => exact mirrors_pure _

theorem turn (s : Session) (selection : Selection) :
    Browse.Mirrors (watched.turn s selection) (crew.turn s selection) := by
  cases selection with
  | enter position => exact h.follow s _
  | back => exact h.follow s _
  | accept => exact h.settle s
  | quit => exact mirrors_pure _

theorem proceed (s : Session) (script : List (Except Failure Selection)) :
    Browse.Mirrors (watched.proceed s script) (crew.proceed s script) := by
  induction script generalizing s with
  | nil => exact (h.pick _ _).bind fun _ ↦ mirrors_pure _
  | cons choice rest ih =>
    refine (h.pick _ _).bind fun selection ↦ (h.turn s selection).bind fun ended ↦ ?_
    cases ended with
    | inl next => exact ih next
    | inr ended => exact mirrors_pure _

theorem run (start : Node) (script : List (Except Failure Selection)) :
    Browse.Mirrors (watched.run start script) (crew.run start script) :=
  (h.start start).bind fun s ↦ h.proceed s script

end Mirrors

end Crew

variable (api : Api (StateM σ)) (writer : Writer (StateM σ)) (display : Display (StateM σ))

theorem mirrors_watch : (watch api writer display).Mirrors (crew api writer display) where
  busy title := (notes_noting_aside (.busy title) _).mirrors
  pick screen _ := (notes_noting_aside (.picked screen) _).mirrors
  list node := ((notes_items api node).noting (.listed node)).mirrors
  accept node := ((notes_accept writer node).noting (.accepted node)).mirrors

/-- Being watched changes neither how browsing goes nor what it leaves. -/
theorem mirrors_run (start : Node) (script : List (Except Failure Selection)) :
    Mirrors ((watch api writer display).run start script)
      (run api writer display start script) := by
  rw [← run_crew]
  exact (mirrors_watch api writer display).run start script

end Browse

end Wayfinder
