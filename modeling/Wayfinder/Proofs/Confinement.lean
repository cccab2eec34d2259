import Wayfinder.Proofs.Browsing
import Wayfinder.Proofs.Orderliness

/-!
A disconnected space is not left. Main statement: whatever a source answers, a walk from a place in
such a space, and browsing from there, come only to places in the same space, and ask only for its
groups and their control planes (`stays_within`).

Neither children nor the place above lead out of the space, and what is asked about a place in it is
asked within it. For browsing this goes through the notes of a watched run, each of which follows
from those before it.
-/

set_option autoImplicit false
set_option relaxedAutoImplicit false

namespace Wayfinder

/-! ### Places, rows and questions -/

/-- What is asked within a space: for its groups, and for their control planes. -/
inductive Question.Within (space : Space) : Question → Prop
  | groups : Within space (.groups space)
  | controlPlanes (g : Group) (hspace : g.space = space) : Within space (.controlPlanes g)

/-- A row that leads nowhere out of a space. -/
def Item.Within (space : Space) (row : Item) : Prop :=
  ∀ node, row.target = some node → node.space? = some space

namespace Node

variable {σ : Type} {api : Api (StateM σ)} {space : Space} {node next : Node}

theorem question?_within (hspace : node.space? = some space) {question : Question}
    (h : node.question? = some question) : question.Within space := by
  cases node with
  | root => cases hspace
  | organization o => cases hspace
  | space s =>
    cases hspace
    cases h
    exact .groups
  | group g =>
    cases h
    exact .controlPlanes g (Option.some.inj hspace)
  | controlPlane c => cases h

theorem IsChild.space? {name : String} (h : node.IsChild name next)
    (hspace : node.space? = some space) : next.space? = some space := by
  cases h with
  | organization o => cases hspace
  | space o s => cases hspace
  | group s name => exact hspace
  | controlPlane g name => exact hspace

/-- Only from a space of an organization a place above leads out. -/
theorem space?_parent (hspace : node.space? = some space) (hlone : space.isCloud = false)
    (h : node.parent? = some next) : next.space? = some space := by
  cases node with
  | root => cases hspace
  | organization o => cases hspace
  | space s =>
    cases hspace
    have hnone : space.organization = none := by simpa [Space.isCloud] using hlone
    rw [parent?, hnone] at h
    cases h
  | group g =>
    cases h
    exact hspace
  | controlPlane c =>
    cases h
    exact hspace

/-- The rows at a place in a disconnected space do not lead out of it. -/
theorem items_within (hspace : node.space? = some space) (hlone : space.isCloud = false) {t : σ}
    {items : List Item} (h : (reply (node.items api) t).1 = .ok items) :
    ∀ row ∈ items, row.Within space := by
  obtain ⟨children, middle, hchildren, hitems⟩ := reply_bind_eq_ok_iff.1 (Prod.ext h rfl)
  cases hitems
  intro row hrow
  rcases mem_listing hrow with ⟨parent, hparent, rfl⟩ | ⟨text, rfl⟩ | hchild
  · rintro _ ⟨⟩
    exact space?_parent hspace hlone hparent
  · rintro _ ⟨⟩
  · obtain ⟨name, below, rfl, hbelow⟩ := exists_child_of_children hchildren hchild
    rintro _ ⟨⟩
    exact hbelow.space? hspace

end Node

/-! ### Browsing -/

namespace Browse

/-- A note that is about places in a space only. -/
def Event.Within (space : Space) (name : String) : Event → Prop
  | .busy title _ => ∃ node : Node, node.space? = some space ∧ title = node.breadcrumbs
  | .picked screen _ => (∃ node : Node, node.space? = some space ∧ screen.title = node.breadcrumbs ∧
      screen.canAccept = node.isAcceptable) ∧ ∀ row ∈ screen.items, row.Within space
  | .asked question => question.Within space
  | .listed node answer => node.space? = some space ∧
      ∀ items, answer = .ok items → ∀ row ∈ items, row.Within space
  | .wrote config _ => ∃ node : Node, node.space? = some space ∧ node.kubeconfig? name = some config
  | .accepted node _ => node.space? = some space

/-- A note of a question that is asked within a space. -/
def Event.Asks (space : Space) (event : Event) : Prop :=
  ∃ question, event = .asked question ∧ question.Within space

/-- What notes tell to be shown lies in a space, with no row that leads out. -/
def ShownWithin (space : Space) (past : List Event) : Prop :=
  ∀ node items, shown? past = some (node, items) →
    node.space? = some space ∧ ∀ row ∈ items, row.Within space

variable {σ : Type} {api : Api (StateM σ)} {name : String} {start node : Node} {space : Space}
  {past log : List Event}

/-- When what is shown is in a space, choices are about places there. -/
theorem heading?_within (hspace : start.space? = some space) (hlone : space.isCloud = false)
    (hwithin : ShownWithin space past) (hheading : heading? start past = some node) :
    node.space? = some space := by
  rw [heading?] at hheading
  split at hheading
  · cases hheading
    exact hspace
  · next position _ =>
    obtain ⟨⟨shown, items⟩, hshown, hrow⟩ := Option.bind_eq_some_iff.1 hheading
    obtain ⟨row, hat, htarget⟩ := Option.bind_eq_some_iff.1 hrow
    exact (hwithin shown items hshown).2 row (List.mem_of_getElem? hat) node htarget
  · obtain ⟨⟨shown, items⟩, hshown, hparent⟩ := Option.bind_eq_some_iff.1 hheading
    exact Node.space?_parent (hwithin shown items hshown).1 hlone hparent
  · obtain ⟨⟨shown, items⟩, hshown, rfl⟩ := Option.map_eq_some_iff.1 hheading
    exact (hwithin shown items hshown).1
  · cases hheading

/-- A note that fits is within a space when those before it are. -/
theorem Event.Fits.within {event : Event} (h : event.Fits api name start past)
    (hspace : start.space? = some space) (hlone : space.isCloud = false)
    (hwithin : ShownWithin space past) : event.Within space name := by
  cases event with
  | busy title answer =>
    obtain ⟨node, hheading, htitle⟩ := Option.map_eq_some_iff.1 h.2
    exact ⟨node, heading?_within hspace hlone hwithin hheading, htitle.symm⟩
  | picked screen answer =>
    obtain ⟨⟨node, hshows⟩, -⟩ := h
    obtain ⟨hnode, hitems⟩ := hwithin node screen.items hshows.shown
    exact ⟨⟨node, hnode, hshows.title, hshows.canAccept⟩, hitems⟩
  | asked question =>
    obtain ⟨-, node, hheading, hquestion, -⟩ := h
    exact Node.question?_within (heading?_within hspace hlone hwithin hheading) hquestion
  | listed node answer =>
    obtain ⟨-, hheading, -, t, hanswer⟩ := h
    have hnode := heading?_within hspace hlone hwithin hheading
    exact ⟨hnode, fun items hitems ↦ Node.items_within hnode hlone (hanswer.trans hitems)⟩
  | wrote config answer =>
    obtain ⟨-, node, hheading, hoffer, -⟩ := h
    refine ⟨node, heading?_within hspace hlone hwithin hheading, ?_⟩
    rw [Node.offer?] at hoffer
    split at hoffer
    · exact hoffer
    · cases hoffer
  | accepted node answer => exact heading?_within hspace hlone hwithin h.2.1

/-- What is shown after a note that is within a space is so, if what was shown before is. -/
theorem ShownWithin.cons {event : Event} (hwithin : ShownWithin space past)
    (hevent : event.Within space name) : ShownWithin space (event :: past) := by
  intro node items hshown
  cases event with
  | listed listed answer =>
    cases answer with
    | ok rows =>
      cases hshown
      exact ⟨hevent.1, hevent.2 _ rfl⟩
    | error failure => exact hwithin node items hshown
  | busy title answer => exact hwithin node items hshown
  | picked screen answer => exact hwithin node items hshown
  | asked question => exact hwithin node items hshown
  | wrote config answer => exact hwithin node items hshown
  | accepted node' answer => exact hwithin node items hshown

theorem Orderly.within (h : Orderly api name start log) (hspace : start.space? = some space)
    (hlone : space.isCloud = false) :
    (∀ event ∈ log, event.Within space name) ∧ ShownWithin space log := by
  induction log with
  | nil => exact ⟨fun event h ↦ absurd h List.not_mem_nil, fun _ _ hshown ↦ by cases hshown⟩
  | cons event past ih =>
    obtain ⟨hfits, hpast⟩ := h
    obtain ⟨hnotes, hwithin⟩ := ih hpast
    have hevent := hfits.within hspace hlone hwithin
    refine ⟨fun other hother ↦ ?_, hwithin.cons hevent⟩
    rcases List.mem_cons.1 hother with rfl | hother
    · exact hevent
    · exact hnotes other hother

/-- A place that was switched to in orderly notes within a space is there. -/
theorem Concludes.space?_switched {switched : Switched}
    (h : Concludes api name start log (.ok (some switched))) (hspace : start.space? = some space)
    (hlone : space.isCloud = false) : switched.node.space? = some space := by
  obtain ⟨horderly, screen, config, past, -, -, rfl⟩ := h
  exact (horderly.within hspace hlone).1 _ List.mem_cons_self

end Browse

/-! ### Walks -/

namespace Node

open Browse

/-- Where a path sets out from a start, and the steps that are left of it. -/
def setOut (path : String) (start : Node) : Except Failure (Node × List String) :=
  if isAbsolute path then fromTop path start (steps path) else .ok (start, steps path)

/-- Work that asks only within a space, and comes only to places there. -/
def Stays {σ : Type} (space : Space) (x : ExceptT Failure (StateM (σ × List Event)) Node) : Prop :=
  ∀ t past, (∀ event ∈ past, event.Asks space) → ∃ answer next log,
    reply x (t, past) = (answer, next, log) ∧ (∀ event ∈ log, event.Asks space) ∧
      ∀ node, answer = .ok node → node.space? = some space

variable {σ : Type} {space : Space} {start node : Node} {path : String}

theorem walk_eq {m : Type → Type} [Monad m] (api : Api m) (start : Node) (path : String) :
    start.walk api path =
      match setOut path start with
      | .error failure => throw failure
      | .ok (node, names) => node.follow api path names := by
  unfold walk setOut
  cases isAbsolute path with
  | true => rfl
  | false => rfl

/-- A path from a place in a disconnected space sets out in that space. -/
theorem space?_setOut (hspace : start.space? = some space) (hlone : space.isCloud = false)
    {names : List String} (h : setOut path start = .ok (node, names)) :
    node.space? = some space := by
  have htop : start.top = .space space := by
    cases start with
    | root => cases hspace
    | organization o => cases hspace
    | space s =>
      cases hspace
      rw [top, hlone]
      rfl
    | group g =>
      cases hspace
      rw [top, hlone]
      rfl
    | controlPlane c =>
      cases hspace
      rw [top, hlone]
      rfl
  rw [setOut] at h
  split at h
  · rw [fromTop, htop] at h
    simp only at h
    split at h
    · cases h
      rfl
    · split at h
      · cases h
        rfl
      · split at h
        · cases h
        · cases h
  · cases h
    exact hspace

theorem stays_pure (hspace : node.space? = some space) :
    Stays space (pure node : ExceptT Failure (StateM (σ × List Event)) Node) :=
  fun t past hpast ↦ ⟨.ok node, t, past, rfl, hpast, by rintro _ ⟨⟩; exact hspace⟩

theorem stays_throw (failure : Failure) :
    Stays space (throw failure : ExceptT Failure (StateM (σ × List Event)) Node) :=
  fun t past hpast ↦ ⟨.error failure, t, past, rfl, hpast, by rintro _ ⟨⟩⟩

theorem Stays.bind {x : ExceptT Failure (StateM (σ × List Event)) Node}
    {f : Node → ExceptT Failure (StateM (σ × List Event)) Node} (h : Stays space x)
    (hf : ∀ node, node.space? = some space → Stays space (f node)) : Stays space (x >>= f) := by
  intro t past hpast
  obtain ⟨answer, next, log, hx, hlog, hanswer⟩ := h t past hpast
  rw [reply_bind, hx]
  cases answer with
  | error failure => exact ⟨.error failure, next, log, rfl, hlog, by rintro _ ⟨⟩⟩
  | ok node => exact hf node (hanswer node rfl) next log hlog

theorem space?_childNamed {name : String} {items : List Item}
    (hitems : ∀ row ∈ items, row.Within space) (h : childNamed? name items = some node) :
    node.space? = some space := by
  obtain ⟨row, hrow, htarget⟩ := Option.bind_eq_some_iff.1 h
  exact hitems row (List.mem_of_find?_eq_some hrow) node htarget

/-- One step of a path stays within the space. -/
theorem stays_step (api : Api (StateM σ)) (hspace : node.space? = some space)
    (hlone : space.isCloud = false) (path name : String) :
    Stays space (node.step (watchedApi api) path name) := by
  rw [step]
  split
  · cases hparent : node.parent? with
    | none => exact stays_throw _
    | some parent => exact stays_pure (space?_parent hspace hlone hparent)
  · intro t past hpast
    rw [reply_bind, notes_items api node t past]
    have hlog : ∀ event ∈ node.question?.toList.map .asked ++ past, event.Asks space := by
      intro event hevent
      rcases List.mem_append.1 hevent with hasked | hevent
      · obtain ⟨question, hquestion, rfl⟩ := List.mem_map.1 hasked
        exact ⟨question, rfl, question?_within hspace (Option.mem_toList.1 hquestion)⟩
      · exact hpast event hevent
    rcases hitems : reply (node.items api) t with ⟨failure | items, next⟩
    · exact ⟨.error failure, next, _, rfl, hlog, by rintro _ ⟨⟩⟩
    · have hrows := items_within hspace hlone (congrArg Prod.fst hitems)
      simp only
      cases hchild : childNamed? name items with
      | none => exact stays_throw _ next _ hlog
      | some child => exact stays_pure (space?_childNamed hrows hchild) next _ hlog

theorem stays_follow (api : Api (StateM σ)) (hspace : node.space? = some space)
    (hlone : space.isCloud = false) (path : String) (names : List String) :
    Stays space (node.follow (watchedApi api) path names) := by
  induction names generalizing node with
  | nil => exact stays_pure hspace
  | cons name rest ih =>
    exact (stays_step api hspace hlone path name).bind fun next hnext ↦ ih hnext

theorem mirrors_step (api : Api (StateM σ)) (path : String) (node : Node) (name : String) :
    Mirrors (node.step (watchedApi api) path name) (node.step api path name) := by
  rw [step, step]
  split
  · cases node.parent? with
    | none => exact fun _ _ ↦ rfl
    | some parent => exact mirrors_pure parent
  · refine (notes_items api node).mirrors.bind fun items ↦ ?_
    cases childNamed? name items with
    | none => exact fun _ _ ↦ rfl
    | some child => exact mirrors_pure child

theorem mirrors_follow (api : Api (StateM σ)) (path : String) (node : Node)
    (names : List String) :
    Mirrors (node.follow (watchedApi api) path names) (node.follow api path names) := by
  induction names generalizing node with
  | nil => exact mirrors_pure node
  | cons name rest ih => exact (mirrors_step api path node name).bind ih

/-- Following names leads to a place in the space. -/
theorem space?_follow {api : Api (StateM σ)} (hspace : node.space? = some space)
    (hlone : space.isCloud = false) {names : List String} {t : σ} {place : Node}
    (h : (reply (node.follow api path names) t).1 = .ok place) : place.space? = some space := by
  obtain ⟨answer, next, log, hfollow, -, hanswer⟩ :=
    stays_follow api hspace hlone path names t [] (List.forall_mem_nil _)
  rw [(mirrors_follow api path node names).reply_eq hfollow] at h
  exact hanswer place h

theorem stays_walk (api : Api (StateM σ)) (hspace : start.space? = some space)
    (hlone : space.isCloud = false) (path : String) :
    Stays space (start.walk (watchedApi api) path) := by
  rw [walk_eq]
  cases hout : setOut path start with
  | error failure => exact stays_throw failure
  | ok out => exact stays_follow api (space?_setOut hspace hlone hout) hlone path out.2

theorem mirrors_walk (api : Api (StateM σ)) (path : String) (start : Node) :
    Mirrors (start.walk (watchedApi api) path) (start.walk api path) := by
  rw [walk_eq, walk_eq]
  cases setOut path start with
  | error failure => exact fun _ _ ↦ rfl
  | ok out => exact mirrors_follow api path out.1 out.2

end Node

namespace Browse

/-- From a place in a disconnected space, whatever is answered, a walk comes to places in the same
space and asks for its groups and their control planes only, and so does browsing, where all that is
shown, listed, written, accepted and returned lies in that space. -/
theorem stays_within {σ : Type} (api : Api (StateM σ)) (writer : Writer (StateM σ))
    (display : Display (StateM σ)) (start : Node) (space : Space) (path : String)
    (script : List (Except Failure Selection)) (t : σ) (hspace : start.space? = some space)
    (hlone : space.isCloud = false) :
    (∃ answer next log,
      reply (start.walk (watchedApi api) path) (t, []) = (answer, next, log) ∧
      reply (start.walk api path) t = (answer, next) ∧ (∀ event ∈ log, event.Asks space) ∧
      ∀ node, answer = .ok node → node.space? = some space) ∧
    (∀ first names before place, Node.setOut path start = .ok (first, names) → before <+: names →
      (reply (first.follow api path before) t).1 = .ok place → place.space? = some space) ∧
    ∃ answer next log,
      reply ((watch api writer display).run start script) (t, []) = (answer, next, log) ∧
      reply (run api writer display start script) t = (answer, next) ∧
      (∀ event ∈ log, event.Within space writer.name) ∧
      ∀ switched, answer = .ok (some switched) → switched.node.space? = some space := by
  refine ⟨?_, fun first names before place hout _ hplace ↦ ?_, ?_⟩
  · obtain ⟨answer, next, log, hwalk, hlog, hanswer⟩ :=
      Node.stays_walk api hspace hlone path t [] (List.forall_mem_nil _)
    exact ⟨answer, next, log, hwalk, (Node.mirrors_walk api path start).reply_eq hwalk, hlog,
      hanswer⟩
  · exact Node.space?_follow (Node.space?_setOut hspace hlone hout) hlone hplace
  · obtain ⟨answer, next, log, hconcludes, hrun⟩ :=
      concludes_run api writer display start script t
    exact ⟨answer, next, log, hrun, (mirrors_run api writer display start script).reply_eq hrun,
      (hconcludes.orderly.within hspace hlone).1,
      fun switched hanswer ↦ (hanswer ▸ hconcludes).space?_switched hspace hlone⟩

/-- A space like that of `atlas`, without an organization. -/
def loneSpace : Space := { onlySpace { name := "acme" } with organization := none }

/-- Further up than there is anything, to a name that organizations have; and up, up once more, a
refusal, and down to a group that becomes the current target. -/
theorem stays_within_atlas :
    let writer : Writer (StateM (List String)) := { name := "up", write := fun _ ↦ pure () }
    let start : Node := .group { space := loneSpace, name := "team" }
    let script : List (Except Failure Selection) :=
      [.ok .back, .ok .back, .ok .accept, .ok (.enter 0), .ok .accept]
    start.space? = some loneSpace ∧ loneSpace.isCloud = false ∧
      (∃ answer next log,
        reply (start.walk (watchedApi atlas) "../../acme") ([], []) = (answer, next, log) ∧
        ∀ event ∈ log, event.Asks loneSpace) ∧
      ∃ answer next log,
        reply ((watch atlas writer titles).run start script) ([], []) = (answer, next, log) ∧
        (∀ event ∈ log, event.Within loneSpace "up") ∧
        ∀ switched, answer = .ok (some switched) → switched.node.space? = some loneSpace := by
  intro writer start script
  have hspace : start.space? = some loneSpace := rfl
  have hlone : loneSpace.isCloud = false := rfl
  obtain ⟨⟨answer, next, log, hwalk, -, hasked, -⟩, -, ended, last, notes, hrun, -, hnotes, hin⟩ :=
    stays_within atlas writer titles start loneSpace "../../acme" script [] hspace hlone
  exact ⟨hspace, hlone, ⟨answer, next, log, hwalk, hasked⟩, ended, last, notes, hrun, hnotes, hin⟩

end Browse

end Wayfinder
