import Wayfinder.Proofs.Watching

/-!
The order in which things happen while browsing, told from the notes of a watched run alone. Main
statement: whatever listings, the writer and the display answer, every note of a run fits what was
noted before it, and the answer fits the last notes (`run_orderly`).

The notes say what is to be shown: the place that was listed last with success (`shown?`), and what
went wrong since the last screen (`mishap?`). A screen shows nothing else (`Screen.Shows`). Between
two screens there is one round. It announces the place that the choice leads to, and then lists it,
or accepts the one that is shown.
-/

set_option autoImplicit false
set_option relaxedAutoImplicit false

namespace Wayfinder.Browse

/-! ### What notes tell -/

/-- The place that was listed last with success, with its rows. -/
def shown? (past : List Event) : Option (Node × List Item) :=
  past.findSome? fun
    | .listed node (.ok items) => some (node, items)
    | _ => none

/-- What the operator chose last. -/
def choice? (past : List Event) : Option Selection :=
  past.findSome? fun
    | .picked _ (.ok selection) => some selection
    | _ => none

/-- What was noted since the last screen. -/
def round (past : List Event) : List Event :=
  past.takeWhile fun
    | .picked _ _ => false
    | _ => true

/-- What is said about a failure since the last screen, to list a place or to accept it. -/
def mishap? (past : List Event) : Option String :=
  (round past).findSome? fun
    | .listed node (.error failure) => some (node.breadcrumbs ++ ": " ++ failure.message)
    | .accepted _ (.error failure) => some failure.message
    | _ => none

/-- The place that the last choice is about: where the chosen row leads, or the place above the one
that is shown, or that itself, to accept it; at first, the one where browsing starts. -/
def heading? (start : Node) (past : List Event) : Option Node :=
  match choice? past with
  | none => some start
  | some (.enter position) => do
    let (_, items) ← shown? past
    let row ← items[position]?
    row.target
  | some .back => do
    let (node, _) ← shown? past
    node.parent?
  | some .accept => (shown? past).map (·.1)
  | some .quit => none

/-- A place could not be listed, or could not be accepted. -/
def Event.Failed : Event → Prop
  | .listed _ answer => answer.isOk = false
  | .accepted _ answer => answer.isOk = false
  | _ => False

/-- A screen shows a place after some notes: the one that was listed last with success, with exactly
the rows of that listing, under its breadcrumbs, and with the offer to accept it if it can be. There
is a status if and only if a listing or an accepting failed since the screen before, and it is what
is said about that. -/
structure Screen.Shows (past : List Event) (screen : Screen) (node : Node) : Prop where
  shown : shown? past = some (node, screen.items)
  title : screen.title = node.breadcrumbs
  canAccept : screen.canAccept = node.isAcceptable
  status : screen.status = mishap? past
  status_iff : screen.status ≠ none ↔ ∃ event ∈ round past, event.Failed

/-- It was shown that a place is on its way. -/
def Event.announced (node : Node) : Event := .busy node.breadcrumbs (.ok ())

/-- What a note has to be like after others.

* A place is announced once in a round, before anything else.
* The places that are asked about and listed are those that choices lead to, with the answers of the
  source.
* A screen shows the place that was listed last, with the failure of its round; it follows another
  at once only if the choice led nowhere.
* What is written is the kubeconfig of the place shown, when the operator chose to accept it. It is
  accepted with the answer to that. -/
def Event.Fits {σ : Type} (api : Api (StateM σ)) (name : String) (start : Node)
    (past : List Event) : Event → Prop
  | .busy title _ => round past = [] ∧ (heading? start past).map Node.breadcrumbs = some title
  | .asked question => choice? past ≠ some .accept ∧ ∃ node, heading? start past = some node ∧
      node.question? = some question ∧ round past = [.announced node]
  | .listed node answer => choice? past ≠ some .accept ∧ heading? start past = some node ∧
      round past = node.question?.toList.map .asked ++ [.announced node] ∧
      ∃ s, (reply (node.items api) s).1 = answer
  | .picked screen _ => (∃ node, screen.Shows past node) ∧
      (round past = [] → heading? start past = none)
  | .wrote config _ => choice? past = some .accept ∧ ∃ node, heading? start past = some node ∧
      node.offer? name = some config ∧ round past = [.announced node]
  | .accepted node answer => choice? past = some .accept ∧ heading? start past = some node ∧
      round past = ((node.offer? name).toList.map
        fun config ↦ .wrote config (answer.map fun _ ↦ ())) ++ [.announced node] ∧
      (answer.isOk = true → (node.offer? name).isSome = true)

/-- Notes of which each fits those before it. -/
def Orderly {σ : Type} (api : Api (StateM σ)) (name : String) (start : Node) :
    List Event → Prop
  | [] => True
  | event :: past => event.Fits api name start past ∧ Orderly api name start past

/-- What the last notes have to be like for an answer. Without a failure of the display or the
operator only the first listing can make browsing fail. -/
def Ends (name : String) (start : Node) (log : List Event) :
    Except Failure (Option Switched) → Prop
  | .ok none => ∃ screen past, log = .picked screen (.ok .quit) :: past
  | .ok (some switched) => ∃ screen config past, screen.Shows past switched.node ∧
      switched.node.offer? name = some config ∧
      log = .accepted switched.node (.ok switched.message) :: .wrote config (.ok ()) ::
        .announced switched.node :: .picked screen (.ok .accept) :: past
  | .error failure => (∃ title past, log = .busy title (.error failure) :: past) ∨
      (∃ screen past, log = .picked screen (.error failure) :: past) ∨
      log = .listed start (.error failure) ::
        (start.question?.toList.map .asked ++ [.announced start])

variable {σ : Type} {api : Api (StateM σ)} {name : String} {start : Node} {past log : List Event}
  {node : Node} {s : Session}

theorem Orderly.fits (h : Orderly api name start log) {after : List Event} {event : Event}
    (hlog : log = after ++ event :: past) : event.Fits api name start past := by
  induction after generalizing log with
  | nil =>
    subst hlog
    exact h.1
  | cons later after ih =>
    subst hlog
    exact ih h.2 rfl

/-! ### Rounds -/

/-- Something is said exactly after a failure in the round. -/
theorem mishap?_ne_none_iff : mishap? past ≠ none ↔ ∃ event ∈ round past, event.Failed := by
  rw [mishap?, Option.ne_none_iff_isSome, List.findSome?_isSome_iff]
  refine exists_congr fun event ↦ and_congr_right fun _ ↦ ?_
  cases event with
  | listed node answer => cases answer <;> simp [Event.Failed, Except.isOk, Except.toBool]
  | accepted node answer => cases answer <;> simp [Event.Failed, Except.isOk, Except.toBool]
  | busy title answer => exact iff_of_false nofun not_false
  | asked question => exact iff_of_false nofun not_false
  | picked screen answer => exact iff_of_false nofun not_false
  | wrote config answer => exact iff_of_false nofun not_false

theorem Orderly.announcing (h : Orderly api name start past) (hround : round past = [])
    (hheading : heading? start past = some node) (answer : Except Failure Unit) :
    Orderly api name start (.busy node.breadcrumbs answer :: past) :=
  ⟨⟨hround, by rw [hheading]; rfl⟩, h⟩

theorem round_announced (node : Node) (hround : round past = []) :
    round (.announced node :: past) = [.announced node] :=
  congrArg (Event.announced node :: ·) hround

/-- The notes of a round in which a place is listed. -/
def listingRound (node : Node) (answer : Except Failure (List Item)) : List Event :=
  .listed node answer :: (node.question?.toList.map .asked ++ [.announced node])

/-- The notes of a round in which a place is accepted, or not. -/
def acceptingRound (name : String) (node : Node) (answer : Except Failure String) : List Event :=
  .accepted node answer :: (((node.offer? name).toList.map
    fun config ↦ .wrote config (answer.map fun _ ↦ ())) ++ [.announced node])

theorem Orderly.listed (h : Orderly api name start past) (hround : round past = [])
    (hchoice : choice? past ≠ some .accept) (hheading : heading? start past = some node)
    {answer : Except Failure (List Item)} (hanswer : ∃ t, (reply (node.items api) t).1 = answer) :
    Orderly api name start (listingRound node answer ++ past) := by
  have hannounced := h.announcing hround hheading (.ok ())
  have hround' := round_announced node hround
  unfold listingRound
  -- Only with a question at hand do the notes before the last one compute.
  cases hquestion : node.question? with
  | none =>
    refine ⟨⟨hchoice, hheading, ?_, hanswer⟩, hannounced⟩
    rw [hquestion]
    exact hround'
  | some question =>
    refine ⟨⟨hchoice, hheading, ?_, hanswer⟩,
      ⟨hchoice, node, hheading, hquestion, hround'⟩, hannounced⟩
    rw [hquestion]
    exact congrArg (Event.asked question :: ·) hround'

theorem Orderly.accepted (h : Orderly api name start past) (hround : round past = [])
    (hchoice : choice? past = some .accept) (hheading : heading? start past = some node)
    {answer : Except Failure String}
    (hoffer : answer.isOk = true → (node.offer? name).isSome = true) :
    Orderly api name start (acceptingRound name node answer ++ past) := by
  have hannounced := h.announcing hround hheading (.ok ())
  have hround' := round_announced node hround
  unfold acceptingRound
  cases hconfig : node.offer? name with
  | none =>
    refine ⟨⟨hchoice, hheading, ?_, hoffer⟩, hannounced⟩
    rw [hconfig]
    exact hround'
  | some config =>
    refine ⟨⟨hchoice, hheading, ?_, hoffer⟩,
      ⟨hchoice, node, hheading, hconfig, hround'⟩, hannounced⟩
    rw [hconfig]
    exact congrArg (Event.wrote config _ :: ·) hround'

theorem mishap?_of_round (hround : round past = []) : mishap? past = none := by
  rw [mishap?, hround]
  rfl

/-- A session is to be shown after notes: its place was listed last with success, with its rows, and
its status is what went wrong since. -/
structure Session.Due (past : List Event) (s : Session) : Prop where
  shown : shown? past = some (s.node, s.items)
  status : mishap? past = s.status

theorem Session.Due.picked (h : s.Due past) (screen : Screen) (answer : Except Failure Selection) :
    Session.Due (.picked screen answer :: past) { s with status := none } :=
  ⟨h.shown, rfl⟩

theorem due_listed_ok (hround : round past = []) (items : List Item) :
    Session.Due (listingRound node (.ok items) ++ past) { node, items } := by
  refine ⟨rfl, ?_⟩
  rw [← mishap?_of_round hround, listingRound]
  cases node.question? with
  | none => rfl
  | some question => rfl

theorem Session.Due.listed_error (h : s.Due past) (failure : Failure) :
    Session.Due (listingRound node (.error failure) ++ past)
      { s with status := some (node.breadcrumbs ++ ": " ++ failure.message) } := by
  refine ⟨?_, rfl⟩
  rw [← h.shown, listingRound]
  cases node.question? with
  | none => rfl
  | some question => rfl

theorem Session.Due.accepted_error (h : s.Due past) (failure : Failure) :
    Session.Due (acceptingRound name node (.error failure) ++ past)
      { s with status := some failure.message } := by
  refine ⟨?_, rfl⟩
  rw [← h.shown, acceptingRound]
  cases node.offer? name with
  | none => rfl
  | some config => rfl

/-- The screen of a session that is due shows its place. -/
theorem Session.Due.shows (h : s.Due past) : s.screen.Shows past s.node where
  shown := h.shown
  title := rfl
  canAccept := rfl
  status := h.status.symm
  status_iff := by
    rw [← mishap?_ne_none_iff, h.status]
    rfl

/-! ### Turns -/

/-- Orderly notes after which a session is to be shown. -/
structure Ready (api : Api (StateM σ)) (name : String) (start : Node) (past : List Event)
    (s : Session) : Prop where
  orderly : Orderly api name start past
  due : s.Due past
  idle : round past = [] → heading? start past = none

/-- Orderly notes at the end of a run. -/
structure Concludes (api : Api (StateM σ)) (name : String) (start : Node) (log : List Event)
    (answer : Except Failure (Option Switched)) : Prop where
  orderly : Orderly api name start log
  ends : Ends name start log answer

/-- Orderly notes after a choice was carried out. -/
def Turned (api : Api (StateM σ)) (name : String) (start : Node) (past : List Event) :
    Except Failure (Session ⊕ Option Switched) → Prop
  | .ok (.inl next) => Ready api name start past next
  | .ok (.inr ended) => Concludes api name start past (.ok ended)
  | .error failure => Concludes api name start past (.error failure)

/-- The notes when a choice was made from the screen of a session. -/
def chosen (s : Session) (selection : Selection) (past : List Event) : List Event :=
  .picked s.screen (.ok selection) :: past

namespace Ready

variable (h : Ready api name start past s)

include h

theorem picking (answer : Except Failure Selection) :
    Orderly api name start (.picked s.screen answer :: past) :=
  ⟨⟨⟨s.node, h.due.shows⟩, h.idle⟩, h.orderly⟩

theorem due_chosen (selection : Selection) :
    Session.Due (chosen s selection past) { s with status := none } :=
  h.due.picked s.screen (.ok selection)

theorem heading?_chosen {selection : Selection} (hne : selection ≠ .accept) :
    heading? start (chosen s selection past) = s.target? selection := by
  have hchoice : choice? (chosen s selection past) = some selection := rfl
  have hshown := (h.due_chosen selection).shown
  rw [heading?, hchoice]
  cases selection with
  | accept => exact absurd rfl hne
  | enter position =>
    simp only [hshown]
    rfl
  | back =>
    simp only [hshown]
    rfl
  | quit => rfl

theorem heading?_accept : heading? start (chosen s .accept past) = some s.node :=
  congrArg (Option.map Prod.fst) (h.due_chosen .accept).shown

theorem failing (failure : Failure) :
    Concludes api name start (.picked s.screen (.error failure) :: past) (.error failure) :=
  ⟨h.picking _, Or.inr (Or.inl ⟨_, _, rfl⟩)⟩

theorem leaving : Concludes api name start (chosen s .quit past) (.ok none) :=
  ⟨h.picking _, s.screen, past, rfl⟩

end Ready

theorem Concludes.of_busy (h : Orderly api name start past) (hround : round past = [])
    (hheading : heading? start past = some node) (failure : Failure) :
    Concludes api name start (.busy node.breadcrumbs (.error failure) :: past) (.error failure) :=
  ⟨h.announcing hround hheading _, Or.inl ⟨_, _, rfl⟩⟩

section Turns

variable (api : Api (StateM σ)) (writer : Writer (StateM σ)) (display : Display (StateM σ))

/-- Announcing a place fails, or work goes on after it. -/
theorem reply_announce {α : Type} (node : Node)
    (f : Unit → ExceptT Failure (StateM (σ × List Event)) α) (t : σ) (past : List Event) :
    (∃ failure next, reply ((watch api writer display).busy node.breadcrumbs >>= f) (t, past) =
        (.error failure, next, .busy node.breadcrumbs (.error failure) :: past)) ∨
      ∃ next, reply ((watch api writer display).busy node.breadcrumbs >>= f) (t, past) =
        reply (f ()) (next, .announced node :: past) := by
  have hbusy : reply ((watch api writer display).busy node.breadcrumbs) (t, past) = _ :=
    notes_noting_aside (.busy node.breadcrumbs) (display.busy node.breadcrumbs) t past
  rw [reply_bind, hbusy]
  rcases reply (display.busy node.breadcrumbs) t with ⟨failure | _, next⟩
  · exact Or.inl ⟨failure, next, rfl⟩
  · exact Or.inr ⟨next, rfl⟩

theorem reply_list (node : Node) (t : σ) (past : List Event) :
    ∃ answer next, (∃ t, (reply (node.items api) t).1 = answer) ∧
      reply ((watch api writer display).list node) (t, .announced node :: past) =
        (answer, next, listingRound node answer ++ past) := by
  refine ⟨(reply (node.items api) t).1, (reply (node.items api) t).2, ⟨t, rfl⟩, ?_⟩
  rw [listingRound, List.cons_append, List.append_assoc]
  exact (notes_items api node).noting (.listed node) t (.announced node :: past)

theorem reply_accept (node : Node) (t : σ) (past : List Event) :
    ∃ answer next, (answer.isOk = true → (node.offer? writer.name).isSome = true) ∧
      reply ((watch api writer display).accept node) (t, .announced node :: past) =
        (answer, next, acceptingRound writer.name node answer ++ past) := by
  refine ⟨(reply (node.accept writer) t).1, (reply (node.accept writer) t).2, ?_, ?_⟩
  · cases hoffer : node.offer? writer.name with
    | some config => exact fun _ ↦ rfl
    | none =>
      obtain ⟨failure, hrefused⟩ := reply_accept_of_none hoffer t
      rw [hrefused]
      exact nofun
  · rw [acceptingRound, List.cons_append, List.append_assoc]
    exact (notes_accept writer node).noting (.accepted node) t (.announced node :: past)

theorem turned_follow (h : Ready api writer.name start past s) (selection : Selection)
    (hne : selection ≠ .accept) (t : σ) :
    ∃ answer next log, Turned api writer.name start log answer ∧
      reply ((watch api writer display).follow s (s.target? selection))
        (t, chosen s selection past) = (answer, next, log) := by
  have hheading := h.heading?_chosen hne
  have hchosen : Orderly api writer.name start (chosen s selection past) := h.picking _
  have hchoice : choice? (chosen s selection past) ≠ some .accept := by
    rintro ⟨⟩
    exact hne rfl
  cases htarget : s.target? selection with
  | none =>
    rw [htarget] at hheading
    exact ⟨.ok (.inl { s with status := none }), t, _,
      ⟨hchosen, h.due_chosen selection, fun _ ↦ hheading⟩, rfl⟩
  | some node =>
    rw [htarget] at hheading
    rw [Crew.follow]
    rcases reply_announce api writer display node _ t (chosen s selection past) with
      ⟨failure, next, hfailed⟩ | ⟨next, hannounced⟩
    · exact ⟨.error failure, next, _, .of_busy hchosen rfl hheading failure, hfailed⟩
    · obtain ⟨answer, last, hanswer, hlist⟩ :=
        reply_list api writer display node next (chosen s selection past)
      have hlisted := hchosen.listed rfl hchoice hheading hanswer
      rw [reply_bind_of_ok _ (reply_lift_run hlist)] at hannounced
      rw [hannounced]
      cases answer with
      | ok items =>
        refine ⟨.ok (.inl { node, items }), last, _, ⟨hlisted, ?_, ?_⟩, rfl⟩
        · exact due_listed_ok rfl items
        · rintro ⟨⟩
      | error failure =>
        refine ⟨.ok (.inl { s with status := _ }), last, _, ⟨hlisted, ?_, ?_⟩, rfl⟩
        · exact (h.due_chosen selection).listed_error failure
        · rintro ⟨⟩

theorem turned_settle (h : Ready api writer.name start past s) (t : σ) :
    ∃ answer next log, Turned api writer.name start log answer ∧
      reply ((watch api writer display).settle s) (t, chosen s .accept past) =
        (answer, next, log) := by
  have hheading := h.heading?_accept
  have hchosen : Orderly api writer.name start (chosen s .accept past) := h.picking _
  rw [Crew.settle]
  rcases reply_announce api writer display s.node _ t (chosen s .accept past) with
    ⟨failure, next, hfailed⟩ | ⟨next, hannounced⟩
  · exact ⟨.error failure, next, _, .of_busy hchosen rfl hheading failure, hfailed⟩
  · obtain ⟨answer, last, hoffer, haccept⟩ :=
      reply_accept api writer display s.node next (chosen s .accept past)
    have haccepted := hchosen.accepted rfl rfl hheading hoffer
    rw [reply_bind_of_ok _ (reply_lift_run haccept)] at hannounced
    rw [hannounced]
    cases answer with
    | ok message =>
      obtain ⟨config, hconfig⟩ := Option.isSome_iff_exists.1 (hoffer rfl)
      refine ⟨.ok (.inr (some { node := s.node, message })), last, _, ⟨haccepted, ?_⟩, rfl⟩
      refine ⟨s.screen, config, past, h.due.shows, hconfig, ?_⟩
      rw [acceptingRound, hconfig]
      rfl
    | error failure =>
      refine ⟨.ok (.inl { s with status := _ }), last, _, ⟨haccepted, ?_, ?_⟩, rfl⟩
      · exact (h.due_chosen .accept).accepted_error failure
      · rintro ⟨⟩

/-- Carrying out a choice keeps the notes in order, whatever is answered. -/
theorem turned_turn (h : Ready api writer.name start past s) (selection : Selection) (t : σ) :
    ∃ answer next log, Turned api writer.name start log answer ∧
      reply ((watch api writer display).turn s selection) (t, chosen s selection past) =
        (answer, next, log) := by
  cases selection with
  | enter position => exact turned_follow api writer display h (.enter position) nofun t
  | back => exact turned_follow api writer display h .back nofun t
  | accept => exact turned_settle api writer display h t
  | quit => exact ⟨.ok (.inr none), t, _, ⟨h.picking _, s.screen, past, rfl⟩, rfl⟩

/-! ### Runs -/

theorem reply_pick (screen : Screen) (choice : Except Failure Selection) (t : σ)
    (past : List Event) :
    (∃ failure next, reply ((watch api writer display).pick screen choice) (t, past) =
        (.error failure, next, .picked screen (.error failure) :: past)) ∨
      ∃ selection next, choice = .ok selection ∧
        reply ((watch api writer display).pick screen choice) (t, past) =
          (.ok selection, next, .picked screen (.ok selection) :: past) := by
  have hpick : reply ((watch api writer display).pick screen choice) (t, past) = _ :=
    notes_noting_aside (.picked screen) ((crew api writer display).pick screen choice) t past
  rw [hpick, crew, reply_bind]
  rcases reply (display.present screen) t with ⟨failure | _, next⟩
  · exact Or.inl ⟨failure, next, rfl⟩
  · cases choice with
    | error failure => exact Or.inl ⟨failure, next, rfl⟩
    | ok selection => exact Or.inr ⟨selection, next, rfl, rfl⟩

/-- A run keeps its notes in order. What carries the induction over the choices is that the session
is the one to be shown after the notes. -/
theorem concludes_proceed (h : Ready api writer.name start past s)
    (script : List (Except Failure Selection)) (t : σ) :
    ∃ answer next log, Concludes api writer.name start log answer ∧
      reply ((watch api writer display).proceed s script) (t, past) = (answer, next, log) := by
  induction script generalizing s past t with
  | nil =>
    rw [Crew.proceed, reply_bind]
    rcases reply_pick api writer display s.screen (.ok .quit) t past with
      ⟨failure, next, hpick⟩ | ⟨selection, next, hchoice, hpick⟩
    · rw [hpick]
      exact ⟨.error failure, next, _, h.failing failure, rfl⟩
    · cases hchoice
      rw [hpick]
      exact ⟨.ok none, next, _, h.leaving, rfl⟩
  | cons choice rest ih =>
    rw [Crew.proceed, reply_bind]
    rcases reply_pick api writer display s.screen choice t past with
      ⟨failure, next, hpick⟩ | ⟨selection, next, -, hpick⟩
    · rw [hpick]
      exact ⟨.error failure, next, _, h.failing failure, rfl⟩
    · obtain ⟨answer, last, log, hturned, hturn⟩ := turned_turn api writer display h selection next
      rw [chosen] at hturn
      simp only [hpick, reply_bind, hturn]
      rcases answer with failure | next' | ended
      · exact ⟨.error failure, last, log, hturned, rfl⟩
      · exact ih hturned last
      · exact ⟨.ok ended, last, log, hturned, rfl⟩

theorem concludes_run (start : Node) (script : List (Except Failure Selection)) (t : σ) :
    ∃ answer next log, Concludes api writer.name start log answer ∧
      reply ((watch api writer display).run start script) (t, []) = (answer, next, log) := by
  have hnothing : Orderly api writer.name start [] := trivial
  rw [Crew.run, Crew.start, bind_assoc]
  rcases reply_announce api writer display start _ t [] with
    ⟨failure, next, hfailed⟩ | ⟨next, hannounced⟩
  · exact ⟨.error failure, next, _, .of_busy hnothing rfl rfl failure, hfailed⟩
  · obtain ⟨answer, last, hanswer, hlist⟩ := reply_list api writer display start next []
    have hchoice : choice? ([] : List Event) ≠ some .accept := by rintro ⟨⟩
    have hlisted := hnothing.listed rfl hchoice rfl hanswer
    rw [hannounced, bind_assoc, reply_bind, hlist]
    cases answer with
    | ok items =>
      refine concludes_proceed api writer display ⟨hlisted, ?_, ?_⟩ script last
      · exact due_listed_ok rfl items
      · rintro ⟨⟩
    | error failure =>
      refine ⟨.error failure, last, _, ⟨hlisted, Or.inr (Or.inr ?_)⟩, rfl⟩
      rw [listingRound, List.append_nil]

end Turns

/-- Whatever listings, the writer and the display answer, and whatever the operator chooses, every
note of a run fits those before it, and the answer of the run fits the last of them. The run is the
one that is not watched. -/
theorem run_orderly (api : Api (StateM σ)) (writer : Writer (StateM σ))
    (display : Display (StateM σ)) (start : Node) (script : List (Except Failure Selection))
    (t : σ) :
    ∃ answer next log,
      reply ((watch api writer display).run start script) (t, []) = (answer, next, log) ∧
      reply (run api writer display start script) t = (answer, next) ∧
      (∀ after event past, log = after ++ event :: past →
        event.Fits api writer.name start past) ∧
      Ends writer.name start log answer := by
  obtain ⟨answer, next, log, ⟨horderly, hends⟩, hrun⟩ :=
    concludes_run api writer display start script t
  exact ⟨answer, next, log, hrun, (mirrors_run api writer display start script).reply_eq hrun,
    fun _ _ _ hlog ↦ horderly.fits hlog, hends⟩

end Wayfinder.Browse
