import Wayfinder.Proofs.Failing
import Wayfinder.Proofs.Verifying

/-!
How a switch ends, when its saves and the writes of its pointer may go wrong in any way. Main
statement: a write finds nothing to do, or saves the kubeconfig that the verifier was asked about
once and accepted, or fails and leaves the pointer as it was; a swap that fails leaves it too, and
asks no verifier. A switch that fails leaves the kubeconfig, whatever breaks it off, exactly if what
it is about to save neither has the kubeconfig itself for its temporary file nor uncovers a file by
the directory that it makes (`ends_whole_iff`).

What carries this is that an action has nothing to do, or fails and leaves everything, or commits
one outcome, whoever saves it (`performBy_cases`, `exists_start_of_commits`). A pointer may fail to
be read or written. What a failed write leaves of one that is kept in a file of its own is said by
`PointerFile.Remains` (`detached_pointerFile`).
-/

set_option autoImplicit false
set_option relaxedAutoImplicit false

namespace Wayfinder.Switch

open Files

namespace Committer

variable {σ ν : Type} {c : Committer (StateM σ)} {s : Desk × σ} {outcome : Outcome}
  {config : Kubeconfig} {hand : Hand (StateM σ)}

/-! ### Commits -/

/-- Writing the pointer leaves a kubeconfig that is there. -/
def SparesKubeconfig (c : Committer (StateM σ)) : Prop :=
  ∀ name s bytes, s.1.disk.read c.store.path = .ok bytes →
    (AtDesk.result (c.pointer.write name) s).2.1.disk.read c.store.path = .ok bytes

/-- A commit fails where its save does, and records the name that leads back otherwise. -/
theorem result_commitBy (c : Committer (StateM σ)) (hand : Hand (StateM σ)) (outcome : Outcome)
    (s : Desk × σ) :
    AtDesk.result (c.commitBy hand outcome) s =
      match AtDesk.result (c.store.saveBy hand outcome.config) s with
      | (.error failure, next) => (.error failure, next)
      | (.ok (), next) => AtDesk.result (c.record outcome.last) next := by
  rw [commitBy, AtDesk.result_bind]
  rcases AtDesk.result (c.store.saveBy hand outcome.config) s with ⟨failure | _, next⟩
  · rfl
  · rfl

/-- A commit fails as the save is broken off. -/
theorem result_commitBy_breaking (c : Committer (StateM σ)) (outcome : Outcome) (d' : Disk)
    (failure : Failure) (s : Desk × σ) :
    AtDesk.result (c.commitBy
        (Hand.breaking (c.store.savePlan outcome.config) s.1.disk d' failure) outcome) s =
      (.error failure, { s.1 with disk := d' }, s.2) := by
  rw [result_commitBy, Store.saveBy, Hand.result_breaking]

/-- A commit goes right when the kubeconfig can be saved, and records the name that leads back. -/
theorem result_commit_ok_iff {next : Desk × σ} :
    AtDesk.result (c.commit outcome) s = (.ok (), next) ↔
    (s.1.disk.after (c.store.savePlan outcome.config)).2 = .ok () ∧
      AtDesk.result (c.record outcome.last)
        ((s.1.follow (c.store.savePlan outcome.config)).1, s.2) = (.ok (), next) := by
  rw [commit, result_commitBy, Store.saveBy, AtDesk.result_follow]
  cases (s.1.disk.after (c.store.savePlan outcome.config)).2 with
  | error failure => simp
  | ok => simp

/-- Recording a name goes right, with a warning when the pointer could not be written. -/
theorem record_cases (c : Committer (StateM σ)) (name : String) (s : Desk × σ) :
    (∃ next, AtDesk.result (c.pointer.write name) s = (.ok (), next) ∧
        AtDesk.result (c.record name) s = (.ok (), next)) ∨
      ∃ failure next warning, AtDesk.result (c.pointer.write name) s = (.error failure, next) ∧
        AtDesk.result (c.record name) s = (.ok (), next.1.warn warning, next.2) := by
  rw [record, AtDesk.result_mk_bind]
  rcases AtDesk.result (c.pointer.write name) s with ⟨failure | _, next⟩
  · exact Or.inr ⟨failure, next, _, rfl, rfl⟩
  · exact Or.inl ⟨next, rfl, rfl⟩

/-- Recording a name leaves what writing the pointer left. -/
theorem exists_record (c : Committer (StateM σ)) (name : String) (s : Desk × σ) :
    ∃ next, AtDesk.result (c.record name) s = (.ok (), next) ∧
      next.1.disk = (AtDesk.result (c.pointer.write name) s).2.1.disk ∧
      next.2 = (AtDesk.result (c.pointer.write name) s).2.2 := by
  rcases record_cases c name s with
    ⟨next, hwrite, hrecord⟩ | ⟨failure, next, warning, hwrite, hrecord⟩
  · exact ⟨next, hrecord, by rw [hwrite], by rw [hwrite]⟩
  · exact ⟨_, hrecord, by rw [hwrite]; rfl, by rw [hwrite]⟩

/-- A commit fails with an end of the save, or saves the kubeconfig and leaves what writing the
pointer leaves then. -/
theorem commitBy_cases (hhand : hand.Follows) (c : Committer (StateM σ)) (outcome : Outcome)
    (s : Desk × σ) :
    (∃ failure next, AtDesk.result (c.commitBy hand outcome) s = (.error failure, next) ∧
        s.1.disk.Ends (c.store.savePlan outcome.config) next.1.disk (.error failure) ∧
        next.2 = s.2) ∨
      ∃ saved next, AtDesk.result (c.store.saveBy hand outcome.config) s = (.ok (), saved) ∧
        s.1.disk.after (c.store.savePlan outcome.config) = (saved.1.disk, .ok ()) ∧
        saved.2 = s.2 ∧ AtDesk.result (c.commitBy hand outcome) s = (.ok (), next) ∧
        next.1.disk = (AtDesk.result (c.pointer.write outcome.last) saved).2.1.disk ∧
        next.2 = (AtDesk.result (c.pointer.write outcome.last) saved).2.2 := by
  obtain ⟨hends, hleft⟩ := hhand (c.store.savePlan outcome.config) s
  rw [result_commitBy, Store.saveBy]
  rcases hsave : AtDesk.result (hand (c.store.savePlan outcome.config)) s with
    ⟨failure | _, saved⟩
  · rw [hsave] at hends hleft
    exact Or.inl ⟨failure, saved, rfl, hends, hleft⟩
  · rw [hsave] at hends hleft
    obtain ⟨next, hrecord, hdisk, hstate⟩ := exists_record c outcome.last saved
    exact Or.inr
      ⟨saved, next, rfl, Disk.ends_ok_iff.1 hends, hleft, hrecord, hdisk, hstate⟩

/-- What a commit saves is loaded next: the pointer, and the warning that it could not be written,
leave it. -/
theorem load_of_commitBy (hhand : hand.Follows) (hspares : c.SparesKubeconfig) {next : Desk × σ}
    (h : AtDesk.result (c.commitBy hand outcome) s = (.ok (), next))
    (hback : outcome.config.ReadsBack) : c.store.load next.1.disk = .ok outcome.config := by
  rcases commitBy_cases hhand c outcome s with ⟨failure, last, hcommit, -⟩ |
    ⟨saved, last, -, hsaved, -, hcommit, hdisk, -⟩
  · cases h.symm.trans hcommit
  · obtain ⟨-, rfl⟩ := Prod.mk.inj (h.symm.trans hcommit)
    have hwritten := hspares outcome.last saved _ (Store.read_of_plan_ok hsaved)
    rw [← hdisk] at hwritten
    exact Store.load_of_read hwritten hback

theorem load_of_commit (hspares : c.SparesKubeconfig) {next : Desk × σ}
    (h : AtDesk.result (c.commit outcome) s = (.ok (), next)) (hback : outcome.config.ReadsBack) :
    c.store.load next.1.disk = .ok outcome.config :=
  load_of_commitBy Hand.follows_follow hspares h hback

theorem isCurrent_iff {file : Kubeconfig} : c.isCurrent file config = true ↔
    file.current = c.preferred ∧ sameTarget file c.preferred config config.current = true := by
  rw [isCurrent, Bool.and_eq_true, beq_iff_eq]

/-! ### What an action comes to -/

/-- What an action is about to save: everything before that went right, and there is something to
do. -/
def Commits (c : Committer (StateM σ)) (s : Desk × σ) : Action → Outcome → Prop
  | .write config, outcome => ∃ file, c.store.load s.1.disk = .ok file ∧
      c.isCurrent file config = false ∧
      merge file config config.current c.preferred = .ok outcome ∧
      ((c.verify s.1.disk outcome.config).run.run s.2).1 = .ok ()
  | .swap, outcome => ∃ name next file, AtDesk.result c.pointer.read s = (.ok (some name), next) ∧
      c.store.load next.1.disk = .ok file ∧ activate file name c.preferred = .ok outcome

/-- An action is about to save, and may change the kubeconfig also if it fails: the kubeconfig is
its own temporary file, or its directory uncovers it. -/
def Risks (c : Committer (StateM σ)) (s : Desk × σ) (action : Action) : Prop :=
  ∃ outcome, c.Commits s action outcome ∧ (c.store.Clashes s.1.disk ∨ c.store.Uncovers s.1.disk)

/-- What is left once the verifier was asked about a kubeconfig. -/
def verified (c : Committer (StateM σ)) (config : Kubeconfig) (s : Desk × σ) : Desk × σ :=
  (s.1, ((c.verify s.1.disk config).run.run s.2).2)

/-- A pointer apart from the kubeconfig. What is held in it, as far as `held` tells, has the form of
the name that was given to it last. It stays when the pointer is read, and when a kubeconfig is
verified or saved, wherever that ends. What a write that fails may leave, `left` says of the name
and what was held before and after. Nor does writing the pointer change a kubeconfig that is
there. -/
structure Detached (c : Committer (StateM σ)) (held : Disk → σ → ν) (form : String → ν)
    (left : String → ν → ν → Prop) : Prop where
  disk_read : ∀ s, (AtDesk.result c.pointer.read s).2.1.disk = s.1.disk
  held_read : ∀ s, held (AtDesk.result c.pointer.read s).2.1.disk
    (AtDesk.result c.pointer.read s).2.2 = held s.1.disk s.2
  held_write : ∀ name s next, AtDesk.result (c.pointer.write name) s = (.ok (), next) →
    held next.1.disk next.2 = form name
  left_write : ∀ name s failure next,
    AtDesk.result (c.pointer.write name) s = (.error failure, next) →
    left name (held s.1.disk s.2) (held next.1.disk next.2)
  spares : c.SparesKubeconfig
  held_save : ∀ config d d' r t, d.Ends (c.store.savePlan config) d' r → held d' t = held d t
  held_verify : ∀ config d t, held d ((c.verify d config).run.run t).2 = held d t

variable {held : Disk → σ → ν} {form : String → ν} {left : String → ν → ν → Prop}
  {action : Action}

/-- A write that has something to save asks the verifier, and commits. -/
theorem result_writeBy_of_commits (h : c.Commits s (.write config) outcome)
    (hand : Hand (StateM σ)) :
    AtDesk.result (c.writeBy hand config) s =
      AtDesk.result (c.commitBy hand outcome) (c.verified outcome.config s) := by
  obtain ⟨file, hload, hcurrent, hmerge, hverify⟩ := h
  rw [result_writeBy hload, if_neg (Bool.eq_false_iff.1 hcurrent)]
  simp only [hmerge, AtDesk.result_elsewhere, hverify, verified]

/-- A write has nothing to do, or fails before it saves, or is about to save. -/
theorem writeBy_cases (c : Committer (StateM σ)) (config : Kubeconfig) (s : Desk × σ) :
    (∃ file, c.store.load s.1.disk = .ok file ∧ c.isCurrent file config = true ∧
        ∀ hand : Hand (StateM σ), AtDesk.result (c.writeBy hand config) s = (.ok (), s)) ∨
      (∃ failure next, (next = s ∨ ∃ asked, next = c.verified asked s) ∧
        ∀ hand : Hand (StateM σ),
          AtDesk.result (c.writeBy hand config) s = (.error failure, next)) ∨
      ∃ outcome, c.Commits s (.write config) outcome := by
  cases hload : c.store.load s.1.disk with
  | error failure =>
    exact Or.inr (Or.inl ⟨failure, s, Or.inl rfl, fun hand ↦
      result_writeBy_of_load_error hload hand config⟩)
  | ok file =>
    simp only [result_writeBy hload]
    by_cases hcurrent : c.isCurrent file config = true
    · exact Or.inl ⟨file, rfl, hcurrent, fun hand ↦ by rw [if_pos hcurrent]⟩
    · simp only [if_neg hcurrent]
      cases hmerge : merge file config config.current c.preferred with
      | error failure => exact Or.inr (Or.inl ⟨failure, s, Or.inl rfl, fun hand ↦ rfl⟩)
      | ok outcome =>
        simp only [AtDesk.result_elsewhere]
        rcases hverify : (c.verify s.1.disk outcome.config).run.run s.2 with ⟨failure | _, next⟩
        · exact Or.inr (Or.inl ⟨failure, (s.1, next),
            Or.inr ⟨outcome.config, by rw [verified, hverify]⟩, fun hand ↦ rfl⟩)
        · exact Or.inr (Or.inr ⟨outcome, file, hload, Bool.eq_false_iff.2 hcurrent, hmerge,
            by rw [hverify]⟩)

/-- A write that goes right had nothing to do, or committed what the merge came to. -/
theorem commit_of_write {file : Kubeconfig} {next : Desk × σ}
    (hload : c.store.load s.1.disk = .ok file)
    (h : AtDesk.result (c.write config) s = (.ok (), next)) :
    (c.isCurrent file config = true ∧ next = s) ∨
      ∃ outcome verified, merge file config config.current c.preferred = .ok outcome ∧
        verified.1 = s.1 ∧ AtDesk.result (c.commit outcome) verified = (.ok (), next) := by
  rcases writeBy_cases c config s with ⟨other, hother, hcurrent, hidle⟩ |
    ⟨failure, last, -, hrefused⟩ | ⟨outcome, hcommits⟩
  · obtain rfl := Except.ok.inj (hother.symm.trans hload)
    exact Or.inl ⟨hcurrent, congrArg Prod.snd (h.symm.trans (hidle AtDesk.follow))⟩
  · cases h.symm.trans (hrefused AtDesk.follow)
  · have hresult := result_writeBy_of_commits hcommits AtDesk.follow
    obtain ⟨other, hother, -, hmerge, -⟩ := hcommits
    obtain rfl := Except.ok.inj (hother.symm.trans hload)
    exact Or.inr ⟨outcome, c.verified outcome.config s, hmerge, rfl, hresult.symm.trans h⟩

/-- A write that fails leaves the kubeconfig, if nothing breaks it off. -/
theorem untouched_of_write_error {failure : Failure} {next : Desk × σ}
    (h : AtDesk.result (c.write config) s = (.error failure, next)) :
    c.store.Untouched s.1.disk next.1.disk := by
  rcases writeBy_cases c config s with ⟨file, -, -, hidle⟩ | ⟨failure', last, hlast, hrefused⟩ |
    ⟨outcome, hcommits⟩
  · cases h.symm.trans (hidle AtDesk.follow)
  · obtain ⟨-, rfl⟩ := Prod.mk.inj (h.symm.trans (hrefused AtDesk.follow))
    rcases hlast with rfl | ⟨asked, rfl⟩
    · exact .refl _ _
    · exact .refl _ _
  · have hresult := result_writeBy_of_commits hcommits AtDesk.follow
    rw [result_commitBy, Store.saveBy, AtDesk.result_follow] at hresult
    have hfailed := hresult.symm.trans h
    cases hanswer : (s.1.disk.after (c.store.savePlan outcome.config)).2 with
    | error failure' =>
      have hdisk := (Desk.disk_of_follow s.1 (c.store.savePlan outcome.config)).1
      simp only [verified, hanswer] at hfailed
      obtain ⟨-, rfl⟩ := Prod.mk.inj hfailed
      rw [hdisk]
      exact Store.untouched_of_plan_error (Prod.ext rfl hanswer)
    | ok =>
      obtain ⟨last, hrecord, -⟩ := exists_record c outcome.last
        ((s.1.follow (c.store.savePlan outcome.config)).1, (c.verified outcome.config s).2)
      simp only [verified, hanswer] at hfailed hrecord
      cases hfailed.symm.trans hrecord

/-- Whoever saves it, an action commits what it is about to save, and the files and the pointer are
as they were until then. -/
theorem exists_start_of_commits (hc : c.Detached held form left)
    (h : c.Commits s action outcome) :
    ∃ start, start.1.disk = s.1.disk ∧ held start.1.disk start.2 = held s.1.disk s.2 ∧
      ∀ hand : Hand (StateM σ), AtDesk.result (c.performBy hand action) s =
        AtDesk.result (c.commitBy hand outcome) start := by
  cases action with
  | write config =>
    exact ⟨c.verified outcome.config s, rfl, hc.held_verify _ _ _, result_writeBy_of_commits h⟩
  | swap =>
    obtain ⟨name, start, file, hread, hload, hactivate⟩ := h
    have hdisk := hc.disk_read s
    have hheld := hc.held_read s
    rw [hread] at hdisk hheld
    refine ⟨start, hdisk, hheld, fun hand ↦ ?_⟩
    rw [performBy, AtDesk.result_bind, result_swapBy, hread]
    simp only [result_restoreBy, hload, hactivate]
    rcases AtDesk.result (c.commitBy hand outcome) start with ⟨failure | _, next⟩
    · rfl
    · rfl

/-- An action has nothing to do, or fails and leaves the files and the pointer, or is about to
save. -/
theorem performBy_cases (hc : c.Detached held form left) (action : Action) (s : Desk × σ) :
    (∃ config file, action = .write config ∧ c.store.load s.1.disk = .ok file ∧
        c.isCurrent file config = true ∧
        ∀ hand : Hand (StateM σ), AtDesk.result (c.performBy hand action) s = (.ok (), s)) ∨
      (∃ failure next, next.1.disk = s.1.disk ∧ held next.1.disk next.2 = held s.1.disk s.2 ∧
        ∀ hand : Hand (StateM σ),
          AtDesk.result (c.performBy hand action) s = (.error failure, next)) ∨
      ∃ outcome, c.Commits s action outcome := by
  cases action with
  | write config =>
    rcases writeBy_cases c config s with ⟨file, hload, hcurrent, hidle⟩ |
      ⟨failure, next, hnext, hrefused⟩ | hcommits
    · exact Or.inl ⟨config, file, rfl, hload, hcurrent, hidle⟩
    · refine Or.inr (Or.inl ⟨failure, next, ?_, ?_, hrefused⟩)
      · rcases hnext with rfl | ⟨asked, rfl⟩
        · rfl
        · rfl
      · rcases hnext with rfl | ⟨asked, rfl⟩
        · rfl
        · exact hc.held_verify _ _ _
    · exact Or.inr (Or.inr hcommits)
  | swap =>
    have hdisk := hc.disk_read s
    have hheld := hc.held_read s
    simp only [performBy, AtDesk.result_bind, result_swapBy]
    rcases hread : AtDesk.result c.pointer.read s with ⟨failure | _ | name, next⟩
    · rw [hread] at hdisk hheld
      exact Or.inr (Or.inl ⟨failure, next, hdisk, hheld, fun hand ↦ rfl⟩)
    · rw [hread] at hdisk hheld
      exact Or.inr (Or.inl ⟨_, next, hdisk, hheld, fun hand ↦ rfl⟩)
    · rw [hread] at hdisk hheld
      simp only [result_restoreBy]
      cases hload : c.store.load next.1.disk with
      | error failure => exact Or.inr (Or.inl ⟨failure, next, hdisk, hheld, fun hand ↦ rfl⟩)
      | ok file =>
        cases hactivate : activate file name c.preferred with
        | error failure =>
          exact Or.inr (Or.inl ⟨failure, next, hdisk, hheld, fun hand ↦ by simp only [hactivate]⟩)
        | ok outcome => exact Or.inr (Or.inr ⟨outcome, name, next, file, hread, hload, hactivate⟩)

/-! ### Actions that fail -/

/-- An action that fails leaves the pointer. -/
theorem held_of_error (hhand : hand.Follows) (hc : c.Detached held form left) (action : Action)
    {failure : Failure} {next : Desk × σ}
    (h : AtDesk.result (c.performBy hand action) s = (.error failure, next)) :
    held next.1.disk next.2 = held s.1.disk s.2 := by
  rcases performBy_cases hc action s with ⟨config, file, -, -, -, hidle⟩ |
    ⟨failure', last, -, hheld, hrefused⟩ | ⟨outcome, hcommits⟩
  · cases (hidle hand).symm.trans h
  · obtain ⟨-, rfl⟩ := Prod.mk.inj ((hrefused hand).symm.trans h)
    exact hheld
  · obtain ⟨start, -, hheld, hcommit⟩ := exists_start_of_commits hc hcommits
    rw [hcommit hand] at h
    rcases commitBy_cases hhand c outcome start with ⟨failure', last, hlast, hends, hstate⟩ |
      ⟨saved, last, -, -, -, hlast, -⟩
    · obtain ⟨-, rfl⟩ := Prod.mk.inj (hlast.symm.trans h)
      rw [hstate, hc.held_save _ _ _ _ _ hends, hheld]
    · cases hlast.symm.trans h

/-- An action that fails leaves the kubeconfig, in whatever way it is broken off, exactly if it is
not at risk. -/
theorem keeps_of_error_iff (hc : c.Detached held form left) (action : Action) (s : Desk × σ) :
    (∀ hand : Hand (StateM σ), hand.Follows → ∀ failure next,
        AtDesk.result (c.performBy hand action) s = (.error failure, next) →
          c.store.bytes? next.1.disk = c.store.bytes? s.1.disk) ↔ ¬ c.Risks s action := by
  constructor
  · rintro hkeeps ⟨outcome, hcommits, hrisk⟩
    obtain ⟨start, hdisk, -, hcommit⟩ := exists_start_of_commits hc hcommits
    obtain ⟨hclashes, huncovers⟩ :=
      (c.store.ends_keep_iff s.1.disk (Store.encode_render_ne_empty outcome.config)).1 <| by
        -- every end of the save that fails is left by some hand
        intro d' failure hends
        rw [← hdisk] at hends
        refine hkeeps _ (Hand.follows_breaking hends) failure
          ({ start.1 with disk := d' }, start.2) ?_
        rw [hcommit]
        exact result_commitBy_breaking c outcome d' failure start
    exact hrisk.elim hclashes huncovers
  · intro hrisks hand hhand failure next h
    rcases performBy_cases hc action s with ⟨config, file, -, -, -, hidle⟩ |
      ⟨failure', last, hdisk, -, hrefused⟩ | ⟨outcome, hcommits⟩
    · cases (hidle hand).symm.trans h
    · obtain ⟨-, rfl⟩ := Prod.mk.inj ((hrefused hand).symm.trans h)
      rw [hdisk]
    · obtain ⟨start, hdisk, -, hcommit⟩ := exists_start_of_commits hc hcommits
      rw [hcommit hand] at h
      rcases commitBy_cases hhand c outcome start with ⟨failure', last, hlast, hends, -⟩ |
        ⟨saved, last, -, -, -, hlast, -⟩
      · obtain ⟨-, rfl⟩ := Prod.mk.inj (hlast.symm.trans h)
        rw [hdisk] at hends
        refine (c.store.ends_keep_iff s.1.disk
          (Store.encode_render_ne_empty outcome.config)).2 ⟨?_, ?_⟩ _ _ hends
        · exact fun hclashes ↦ hrisks ⟨outcome, hcommits, Or.inl hclashes⟩
        · exact fun huncovers ↦ hrisks ⟨outcome, hcommits, Or.inr huncovers⟩
      · cases hlast.symm.trans h

/-! ### Endings -/

/-- The ways for a write to end. -/
inductive Ending
  /-- There was nothing to do. -/
  | idle
  /-- What the merge came to was saved. -/
  | saved (outcome : Outcome)
  | refused (failure : Failure)

/-- What is answered at the end. -/
def Ending.answer : Ending → Except Failure Unit
  | .idle => .ok ()
  | .saved _ => .ok ()
  | .refused failure => .error failure

/-- What is left once the verifier was asked about an outcome and the outcome was saved. -/
def afterSave (c : Committer (StateM σ)) (hand : Hand (StateM σ)) (outcome : Outcome)
    (s : Desk × σ) : Desk × σ :=
  (AtDesk.result (c.store.saveBy hand outcome.config) (c.verified outcome.config s)).2

/-- What is true of a write that ends in each of the ways. -/
def EndsIn (c : Committer (StateM σ)) (hand : Hand (StateM σ)) (held : Disk → σ → ν)
    (form : String → ν) (left : String → ν → ν → Prop) (config : Kubeconfig) (s : Desk × σ) :
    Ending → Prop
  | .idle => AtDesk.result (c.writeBy hand config) s = (.ok (), s) ∧
      c.asked (·.writeBy (handAside hand) config) s = [] ∧
      ∃ file, c.store.load s.1.disk = .ok file ∧ file.current = c.preferred ∧
        sameTarget file c.preferred config config.current = true
  | .saved outcome => ∃ next, AtDesk.result (c.writeBy hand config) s = (.ok (), next) ∧
      c.asked (·.writeBy (handAside hand) config) s = [outcome.config] ∧
      c.Commits s (.write config) outcome ∧
      (outcome.config.ReadsBack → c.store.load next.1.disk = .ok outcome.config) ∧
      match (AtDesk.result (c.pointer.write outcome.last) (c.afterSave hand outcome s)).1 with
      | .ok _ => held next.1.disk next.2 = form outcome.last
      | .error _ => left outcome.last (held s.1.disk s.2) (held next.1.disk next.2)
  | .refused failure => ∃ next,
      AtDesk.result (c.writeBy hand config) s = (.error failure, next) ∧
      held next.1.disk next.2 = held s.1.disk s.2 ∧
      (¬ c.Risks s (.write config) → c.store.bytes? next.1.disk = c.store.bytes? s.1.disk)

theorem answer_of_endsIn {ending : Ending} (h : c.EndsIn hand held form left config s ending) :
    (AtDesk.result (c.writeBy hand config) s).1 = ending.answer := by
  cases ending with
  | idle => rw [h.1, Ending.answer]
  | saved outcome =>
    obtain ⟨next, hresult, -⟩ := h
    rw [hresult, Ending.answer]
  | refused failure =>
    obtain ⟨next, hresult, -⟩ := h
    rw [hresult, Ending.answer]

/-- No write ends in two ways. -/
theorem endsIn_unique {ending ending' : Ending} (h : c.EndsIn hand held form left config s ending)
    (h' : c.EndsIn hand held form left config s ending') : ending = ending' := by
  have hanswer : ending.answer = ending'.answer :=
    (answer_of_endsIn h).symm.trans (answer_of_endsIn h')
  cases ending with
  | idle =>
    cases ending' with
    | idle => rfl
    | saved outcome =>
      obtain ⟨next, -, hasked, -⟩ := h'
      cases h.2.1.symm.trans hasked
    | refused failure => cases hanswer
  | saved outcome =>
    obtain ⟨next, -, hasked, ⟨file, hload, -, hmerge, -⟩, -⟩ := h
    cases ending' with
    | idle => cases hasked.symm.trans h'.2.1
    | saved outcome' =>
      obtain ⟨next', -, -, ⟨file', hload', -, hmerge', -⟩, -⟩ := h'
      obtain rfl : file = file' := Except.ok.inj (hload.symm.trans hload')
      rw [Except.ok.inj (hmerge.symm.trans hmerge')]
    | refused failure => cases hanswer
  | refused failure =>
    cases ending' with
    | idle => cases hanswer
    | saved outcome => cases hanswer
    | refused failure' =>
      cases hanswer
      rfl

/-- The verifier is asked about what a write is about to save. -/
theorem asked_of_commits (h : c.Commits s (.write config) outcome) (hand : Hand (StateM σ)) :
    c.asked (·.writeBy (handAside hand) config) s = [outcome.config] := by
  obtain ⟨file, hload, hcurrent, hmerge, -⟩ := h
  rw [asked_writeBy hload, questions, if_neg (Bool.eq_false_iff.1 hcurrent), hmerge]

/-- What a write is about to save is saved, and recorded in the pointer as far as that can be
written, or the write fails. -/
theorem exists_endsIn_of_commits (hhand : hand.Follows) (hc : c.Detached held form left)
    (h : c.Commits s (.write config) outcome) :
    ∃ ending, c.EndsIn hand held form left config s ending := by
  have hresult := result_writeBy_of_commits h hand
  rcases commitBy_cases hhand c outcome (c.verified outcome.config s) with
    ⟨failure, next, hlast, -⟩ | ⟨saved, next, hsave, hafter, hstate, hlast, hdisk, hleft⟩
  · have hfailed := hresult.trans hlast
    exact ⟨.refused failure, next, hfailed,
      held_of_error hhand hc (.write config) hfailed,
      fun hrisks ↦ (keeps_of_error_iff hc (.write config) s).2 hrisks hand hhand _ _ hfailed⟩
  · refine ⟨.saved outcome, next, hresult.trans hlast, asked_of_commits h hand, h,
      load_of_commitBy hhand hc.spares hlast, ?_⟩
    have hheld : held saved.1.disk saved.2 = held s.1.disk s.2 := by
      rw [hc.held_save _ _ _ _ _ (Disk.ends_ok_iff.2 hafter), hstate]
      exact hc.held_verify _ _ _
    rw [afterSave, hsave, hdisk, hleft]
    rcases hwrite : AtDesk.result (c.pointer.write outcome.last) saved with ⟨failure | _, written⟩
    · rw [← hheld]
      exact hc.left_write _ _ _ _ hwrite
    · exact hc.held_write _ _ _ hwrite

theorem exists_endsIn (hhand : hand.Follows) (hc : c.Detached held form left) (config : Kubeconfig)
    (s : Desk × σ) : ∃ ending, c.EndsIn hand held form left config s ending := by
  rcases performBy_cases hc (.write config) s with ⟨other, file, heq, hload, hcurrent, hidle⟩ |
    ⟨failure, next, hdisk, hheld, hrefused⟩ | ⟨outcome, hcommits⟩
  · cases heq
    refine ⟨.idle, hidle hand, ?_, file, hload, isCurrent_iff.1 hcurrent⟩
    rw [asked_writeBy hload, questions, if_pos hcurrent]
  · exact ⟨.refused failure, next, hrefused hand, hheld, fun _ ↦ by rw [hdisk]⟩
  · exact exists_endsIn_of_commits hhand hc hcommits

/-- Whatever the files, the pointer and the verifier, and whatever breaks off a save or not, a write
ends in exactly one of three ways. It finds nothing to do, asks no verifier and changes nothing; or
it saves the kubeconfig that it asked the verifier about, once, and that was accepted, and then
gives the pointer the name that leads back, if it can; or it fails and leaves the pointer. A swap
asks no verifier, and leaves the pointer when it fails.

An action that fails leaves the kubeconfig as well, in whatever way it is broken off, if and only if
it is not about to save to a temporary file that is the kubeconfig itself, or by a directory that
uncovers it. Of a pointer in a file, a write that fails leaves what was there or some of the first
octets of the line; and it leaves what was there, in whatever way it is broken off, if and only if
the file can not be opened. -/
theorem ends_whole_iff (c : Committer (StateM σ)) (held : Disk → σ → ν) (form : String → ν)
    (left : String → ν → ν → Prop) (s : Desk × σ) (hc : c.Detached held form left) :
    (∀ hand : Hand (StateM σ), hand.Follows →
      (∀ config, ∃! ending, c.EndsIn hand held form left config s ending) ∧
        c.asked (·.swapBy (handAside hand)) s = [] ∧
        ∀ failure next, AtDesk.result (c.performBy hand .swap) s = (.error failure, next) →
          held next.1.disk next.2 = held s.1.disk s.2) ∧
    (∀ action, (∀ hand : Hand (StateM σ), hand.Follows → ∀ failure next,
        AtDesk.result (c.performBy hand action) s = (.error failure, next) →
          c.store.bytes? next.1.disk = c.store.bytes? s.1.disk) ↔ ¬ c.Risks s action) ∧
    ∀ path place name, (∀ (d : Disk) (other : String), d.locate path = .ok other → other = place) →
      (∀ d' failure, s.1.disk.Ends (PointerFile.plan path name) d' (.error failure) →
        PointerFile.Remains name (s.1.disk.file? place) (d'.file? place)) ∧
      ((∀ d' failure, s.1.disk.Ends (PointerFile.plan path name) d' (.error failure) →
        d'.file? place = s.1.disk.file? place) ↔ ¬ PointerFile.Opens path s.1.disk) := by
  refine ⟨fun hand hhand ↦ ⟨fun config ↦ ?_, asked_swapBy c hand s, fun failure next h ↦ ?_⟩,
    fun action ↦ keeps_of_error_iff hc action s, fun path place name hpath ↦ ⟨?_, ?_⟩⟩
  · obtain ⟨ending, hending⟩ := exists_endsIn hhand hc config s
    exact ⟨ending, hending, fun other hother ↦ endsIn_unique hother hending⟩
  · exact held_of_error hhand hc .swap h
  · exact fun d' failure h ↦ PointerFile.remains_of_ends hpath h
  · exact PointerFile.ends_keep_iff name hpath s.1.disk

/-! ### A pointer in a file -/

/-- A pointer in a file of its own, which is neither the kubeconfig nor the file that this is first
written to, is apart from the kubeconfig, whoever writes it. -/
theorem detached_pointerFile {path place : String} (hhand : hand.Follows)
    (hpointer : c.pointer = PointerFile.pointerBy hand path)
    (hpath : ∀ (d : Disk) (other : String), d.locate path = .ok other → other = place)
    (hkubeconfig : Path.Avoids c.store.path place)
    (htemporary : Path.Avoids c.store.temporaryPath place) :
    c.Detached (fun d _ ↦ d.file? place) (fun name ↦ some (Text.encode (name ++ "\n")))
      PointerFile.Remains where
  disk_read s := by
    rw [hpointer]
    rfl
  held_read s := by
    rw [hpointer]
    rfl
  held_write name s next h := by
    obtain ⟨hends, -⟩ := hhand (PointerFile.plan path name) s
    rw [hpointer, PointerFile.pointerBy] at h
    rw [h] at hends
    have hread := PointerFile.read_of_plan_ok (Disk.ends_ok_iff.1 hends)
    obtain ⟨other, hother, hfile⟩ := Disk.read_eq_ok_iff.1 hread
    rw [← hpath _ other hother]
    exact hfile
  left_write name s failure next h := by
    obtain ⟨hends, -⟩ := hhand (PointerFile.plan path name) s
    rw [hpointer, PointerFile.pointerBy] at h
    rw [h] at hends
    exact PointerFile.remains_of_ends hpath hends
  spares name s bytes h := by
    obtain ⟨hends, -⟩ := hhand (PointerFile.plan path name) s
    obtain ⟨other, hother, hfile⟩ := Disk.read_eq_ok_iff.1 h
    have hne := hkubeconfig _ other hother
    rw [hpointer, PointerFile.pointerBy, Disk.read_eq_ok_iff]
    refine ⟨other, Disk.locate_of_grows hends.grows hother, ?_⟩
    rw [hends.file?_eq, hfile]
    intro planned hplanned touched htouched d last hlast
    obtain rfl := PointerFile.touched_of_mem_plan hplanned htouched
    rw [hpath d last hlast]
    exact hne.symm
  held_save config d d' r t h := by
    refine h.file?_eq fun planned hplanned touched htouched ↦ ?_
    rcases Store.touched_of_mem_plan hplanned htouched with rfl | rfl
    · exact htemporary
    · exact hkubeconfig
  held_verify config d t := rfl

theorem avoids_of_locate {path place other : String} (h : ∀ d : Disk, d.locate path = .ok other)
    (hne : other ≠ place) : Path.Avoids path place := by
  intro d last hlast
  rwa [← Except.ok.inj ((h d).symm.trans hlast)]

/-- A committer that keeps the pointer in a file, which someone writes, and that rejects clusters
without a server. -/
def filedBy (hand : Hand (StateM Unit)) : Committer (StateM Unit) where
  store := { path := "/k" }
  pointer := PointerFile.pointerBy hand "/p"
  verify _ config :=
    if config.clusters.entries.all fun e ↦ e.2.server != "" then pure ()
    else throw (.config "no server")
  preferred := "p"

/-- A committer of which the pointer goes wrong only because of what the tree is like. -/
def filed : Committer (StateM Unit) := filedBy AtDesk.follow

theorem locate_filed (d : Disk) : d.locate "/p" = .ok "/p" ∧ d.locate "/k" = .ok "/k" ∧
    d.locate "/k.tmp" = .ok "/k.tmp" :=
  ⟨rfl, rfl, rfl⟩

theorem detached_filedBy {hand : Hand (StateM Unit)} (hhand : hand.Follows) :
    (filedBy hand).Detached (fun d _ ↦ d.file? "/p") (fun name ↦ some (Text.encode (name ++ "\n")))
      PointerFile.Remains := by
  have htemporary : Store.temporaryPath { path := "/k" } = "/k.tmp" := by decide
  have hkept : Path.Avoids (filedBy hand).store.path "/p" :=
    avoids_of_locate (fun d ↦ (locate_filed d).2.1) (by decide)
  have hfirst : Path.Avoids (Store.temporaryPath { path := "/k" }) "/p" :=
    htemporary ▸ avoids_of_locate (fun d ↦ (locate_filed d).2.2) (by decide)
  exact detached_pointerFile hhand rfl
    (fun d other h ↦ Except.ok.inj (h.symm.trans (locate_filed d).1)) hkept hfirst

theorem spares_filed : filed.SparesKubeconfig := (detached_filedBy Hand.follows_follow).spares

/-- A target that is accepted, with both files at the root. -/
theorem ends_whole_iff_filed :
    let form : String → Option ByteArray := fun name ↦ some (Text.encode (name ++ "\n"))
    let held : Disk → Unit → Option ByteArray := fun d _ ↦ d.file? "/p"
    let s : Desk × Unit := ({ disk := {} }, ())
    filed.Detached held form PointerFile.Remains ∧
      (∃! ending, filed.EndsIn AtDesk.follow held form PointerFile.Remains (served "s") s ending) ∧
      (∀ hand : Hand (StateM Unit), hand.Follows → ∀ failure next,
        AtDesk.result (filed.performBy hand (.write (served "s"))) s = (.error failure, next) →
          filed.store.bytes? next.1.disk = none) ∧
      ∃ d' failure, s.1.disk.Ends (PointerFile.plan "/p" "x") d' (.error failure) ∧
        d'.file? "/p" ≠ s.1.disk.file? "/p" := by
  intro form held s
  have hc : filed.Detached held form PointerFile.Remains := detached_filedBy Hand.follows_follow
  obtain ⟨hends, hkeeps, hpointer⟩ := ends_whole_iff filed held form PointerFile.Remains s hc
  refine ⟨hc, (hends _ Hand.follows_follow).1 (served "s"), ?_, ?_⟩
  · refine (hkeeps (.write (served "s"))).2 ?_
    rintro ⟨outcome, -, ⟨hsame, -⟩ | huncovers⟩
    · exact absurd hsame (by decide)
    · exact Store.not_uncovers_of_locate (locate_filed s.1.disk).2.1 huncovers
  · have hopens : PointerFile.Opens "/p" s.1.disk := ⟨_, "/p", rfl, rfl, nofun⟩
    by_contra hnone
    refine (hpointer "/p" "/p" "x" fun d other h ↦
      Except.ok.inj (h.symm.trans (locate_filed d).1)).2.1 (fun d' failure h ↦ ?_) hopens
    exact not_not.1 fun hne ↦ hnone ⟨d', failure, h, hne⟩

/-! ### Switches that are broken off -/

/-- A committer that keeps the name in memory, and accepts everything. -/
def keeping (path : String) : Committer (StateM (Option String)) :=
  { watchful with store := { path }, verify := fun _ _ ↦ pure () }

/-- A tree in which something stands next to a kubeconfig that was saved before. -/
def savedBefore (place : String) (others : List (String × Entry)) : Disk where
  entries := NameMap.ofList
    ((place, .file (Text.encode ({} : Kubeconfig).render) Store.privateMode) :: others)

/-- A tree with a name that was recorded before. -/
def recordedBefore : Disk where
  entries := NameMap.ofList [("/p", .file (Text.encode "old\n") usualMode)]

/-- A kubeconfig that is its own temporary file is empty when the save breaks off behind the opening
of that. -/
theorem writeBy_empties :
    ∃ hand : Hand (StateM (Option String)), hand.Follows ∧ ∃ failure next,
      AtDesk.result ((keeping "/k.tmp").writeBy hand (served "s"))
          ({ disk := savedBefore "/k.tmp" [] }, none) = (.error failure, next) ∧
        (keeping "/k.tmp").store.bytes? next.1.disk = some ByteArray.empty := by
  have hload : (keeping "/k.tmp").store.load (savedBefore "/k.tmp" []) = .ok {} :=
    Store.load_of_read rfl (by decide +kernel)
  obtain ⟨outcome, hcommits⟩ : ∃ outcome, (keeping "/k.tmp").Commits
      ({ disk := savedBefore "/k.tmp" [] }, none) (.write (served "s")) outcome :=
    ⟨_, _, hload, rfl, rfl, rfl⟩
  have hclashes : (keeping "/k.tmp").store.Clashes (savedBefore "/k.tmp" []) :=
    ⟨by decide, _, _, rfl, rfl, nofun⟩
  obtain ⟨d', failure, hends, hleft⟩ := hclashes.ends_first
    (ByteArray.empty_append (b := Text.encode outcome.config.render))
  refine ⟨_, Hand.follows_breaking hends, failure, ({ disk := d' }, none), ?_, hleft⟩
  rw [result_writeBy_of_commits hcommits]
  exact result_commitBy_breaking (keeping "/k.tmp") outcome d' failure
    ({ disk := savedBefore "/k.tmp" [] }, none)

/-- The file of the pointer is empty when its write breaks off behind the opening, and the switch
goes right. -/
theorem write_empties_pointer :
    ∃ hand : Hand (StateM Unit), hand.Follows ∧ ∃ next,
      AtDesk.result ((filedBy hand).write (served "s")) ({ disk := recordedBefore }, ()) =
          (.ok (), next) ∧
        next.1.disk.file? "/p" = some ByteArray.empty := by
  have hload : filed.store.load recordedBefore = .ok {} := rfl
  obtain ⟨outcome, hmerge, hverify⟩ : ∃ outcome, merge {} (served "s") "t" "p" = .ok outcome ∧
      ∀ hand, (((filedBy hand).verify recordedBefore outcome.config).run.run ()).1 = .ok () :=
    ⟨_, rfl, fun _ ↦ rfl⟩
  have hcommits (hand : Hand (StateM Unit)) : (filedBy hand).Commits
      ({ disk := recordedBefore }, ()) (.write (served "s")) outcome :=
    ⟨{}, hload, rfl, hmerge, hverify hand⟩
  obtain ⟨saved, hsaved⟩ : ∃ saved,
      recordedBefore.after (filed.store.savePlan outcome.config) = (saved, .ok ()) := by
    have hchecked : (merge {} (served "s") "t" "p").toOption.all (fun outcome ↦
        (recordedBefore.after (filed.store.savePlan outcome.config)).2.isOk) = true := by
      decide +kernel
    rw [hmerge] at hchecked
    rcases hafter : recordedBefore.after (filed.store.savePlan outcome.config) with
      ⟨saved, failure | _⟩
    · rw [Except.toOption, Option.all_some, hafter] at hchecked
      cases hchecked
    · exact ⟨saved, rfl⟩
  have hthere : saved.file? "/p" = some (Text.encode "old\n") :=
    (detached_filedBy Hand.follows_follow).held_save _ _ _ _ () (Disk.ends_ok_iff.2 hsaved)
  have hprepared : saved.after (PointerFile.preparing "/p") = (saved, .ok ()) := rfl
  have hfree : saved.entry? "/p" ≠ some .directory := by
    intro hdirectory
    simp [Disk.file?, hdirectory] at hthere
  obtain ⟨d', failure, hends, hleft⟩ := PointerFile.exists_ends
    (ByteArray.empty_append (b := Text.encode (outcome.last ++ "\n"))) hprepared
    (locate_filed saved).1 hfree
  let hand : Hand (StateM Unit) :=
    Hand.breaking (PointerFile.plan "/p" outcome.last) saved d' failure
  refine ⟨hand, Hand.follows_breaking hends, ?_⟩
  let written : Desk × Unit :=
    ((Desk.follow { disk := recordedBefore } (filed.store.savePlan outcome.config)).1, ())
  have hdisk : written.1.disk = saved := by
    rw [(Desk.disk_of_follow _ _).1, hsaved]
  obtain ⟨next, hrecord, hleaves, -⟩ := exists_record (filedBy hand) outcome.last written
  refine ⟨next, ?_, ?_⟩
  · rw [write, result_writeBy_of_commits (hcommits hand)]
    exact result_commit_ok_iff.2 ⟨congrArg Prod.snd hsaved, hrecord⟩
  · have hbroken := Hand.result_breaking (PointerFile.plan "/p" outcome.last) d' failure written
    rw [hdisk] at hbroken
    rw [hleaves]
    exact (congrArg (fun r ↦ r.2.1.disk.file? "/p") hbroken).trans hleft

/-- A write that fails may have emptied the kubeconfig; also where nothing breaks it off, it may
have uncovered one. One that goes right may have emptied the file of the pointer. -/
theorem ends_not_whole :
    (∃ hand : Hand (StateM (Option String)), hand.Follows ∧ ∃ failure next,
      AtDesk.result ((keeping "/k.tmp").writeBy hand (served "s"))
          ({ disk := savedBefore "/k.tmp" [] }, none) = (.error failure, next) ∧
        (keeping "/k.tmp").store.bytes? (savedBefore "/k.tmp" []) ≠ some ByteArray.empty ∧
        (keeping "/k.tmp").store.bytes? next.1.disk = some ByteArray.empty) ∧
    (∃ failure next,
      AtDesk.result ((keeping "/a/../k").write (served "s"))
          ({ disk := savedBefore "/k" [("/k.tmp", .directory)] }, none) = (.error failure, next) ∧
        (keeping "/a/../k").store.bytes? (savedBefore "/k" [("/k.tmp", .directory)]) = none ∧
        (keeping "/a/../k").store.bytes? next.1.disk =
          some (Text.encode ({} : Kubeconfig).render)) ∧
    ∃ hand : Hand (StateM Unit), hand.Follows ∧ ∃ next,
      AtDesk.result ((filedBy hand).write (served "s")) ({ disk := recordedBefore }, ()) =
          (.ok (), next) ∧
        recordedBefore.file? "/p" ≠ some ByteArray.empty ∧
        next.1.disk.file? "/p" = some ByteArray.empty := by
  refine ⟨?_, ⟨_, _, rfl, rfl, rfl⟩, ?_⟩
  · obtain ⟨hand, hhand, failure, next, hresult, hleft⟩ := writeBy_empties
    refine ⟨hand, hhand, failure, next, hresult, fun hempty ↦ ?_, hleft⟩
    exact Store.encode_render_ne_empty {} (Option.some.inj hempty)
  · obtain ⟨hand, hhand, next, hresult, hleft⟩ := write_empties_pointer
    refine ⟨hand, hhand, next, hresult, fun hempty ↦ ?_, hleft⟩
    exact PointerFile.encode_line_ne_empty "old" (Option.some.inj hempty)

end Committer

end Wayfinder.Switch
