import Wayfinder.Switch.Commit
import Wayfinder.Proofs.Loading
import Wayfinder.Proofs.Soundness
import Wayfinder.Proofs.Working

/-!
Runs of a committer: any number of switches forward and back, of which some may be refused. Main
statement: no run leaves a context without its entries, a current context that does not exist, or a
recorded name that does not lead to another context (`run_keeps_settled`).
-/

set_option autoImplicit false
set_option relaxedAutoImplicit false

namespace Wayfinder.Switch

open Kubeconfig Files

/-! ### Committers -/

/-- What a committer is asked to do. -/
inductive Action
  /-- Switching to the current target of a kubeconfig. -/
  | write (config : Kubeconfig)
  /-- Switching back. -/
  | swap

/-- The target of an action that has one of its own can be looked up. -/
def Action.Resolves : Action → Prop
  | write config => ∃ target, config.resolve config.current = .ok target
  | swap => True

namespace Committer

variable {σ : Type}

/-- Does what is asked, by the hand of someone who saves it. -/
def performBy (c : Committer (StateM σ)) (hand : Hand (StateM σ)) :
    Action → AtDesk (StateM σ) Unit
  | .write config => c.writeBy hand config
  | .swap => do
    let _ ← c.swapBy hand
    pure ()

/-- Does what is asked. -/
def perform (c : Committer (StateM σ)) (action : Action) : AtDesk (StateM σ) Unit :=
  c.performBy AtDesk.follow action

/-- What an action leaves, whether or not it is refused. -/
def step (c : Committer (StateM σ)) (s : Desk × σ) (action : Action) : Desk × σ :=
  (AtDesk.result (c.perform action) s).2

/-- What actions leave, one after the other. -/
def run (c : Committer (StateM σ)) (actions : List Action) (s : Desk × σ) : Desk × σ :=
  actions.foldl c.step s

/-- The pointer returns the name that it was given, the empty one counting as none, and its writes
succeed and leave the kubeconfig. Neither saving nor verifying changes the name. -/
structure Dependable (c : Committer (StateM σ)) (kept : Desk × σ → Option String) : Prop where
  read : ∀ s, AtDesk.result c.pointer.read s = (.ok (kept s), s)
  write : ∀ name s, (AtDesk.result (c.pointer.write name) s).1 = .ok ()
  kept_write : ∀ name s, kept (AtDesk.result (c.pointer.write name) s).2 = recorded name
  look_write : ∀ name s, (AtDesk.result (c.pointer.write name) s).2.1.disk.look c.store.path =
    s.1.disk.look c.store.path
  kept_save : ∀ config s, kept (AtDesk.result (c.store.save config) s).2 = kept s
  kept_verify : ∀ config s,
    kept (AtDesk.result (AtDesk.elsewhere (c.verify s.1.disk config)) s).2 = kept s

/-- The kubeconfig can be loaded and is sound, and the kept name leads to another context. -/
def Settled (c : Committer (StateM σ)) (kept : Desk × σ → Option String) (s : Desk × σ) : Prop :=
  ∃ file, c.store.load s.1.disk = .ok file ∧ file.Sound ∧ file.LeadsElsewhere (kept s)

/-- Saves what a switch came to, by the hand of someone, and records what leads back. -/
def commitBy (c : Committer (StateM σ)) (hand : Hand (StateM σ)) (outcome : Outcome) :
    AtDesk (StateM σ) Unit := do
  c.store.saveBy hand outcome.config
  c.record outcome.last

/-- Saves what a switch came to, and records what leads back. -/
def commit (c : Committer (StateM σ)) (outcome : Outcome) : AtDesk (StateM σ) Unit :=
  c.commitBy AtDesk.follow outcome

/-- Switches back to the target of a context, by the hand of someone who saves it. -/
def restoreBy (c : Committer (StateM σ)) (hand : Hand (StateM σ)) (name : String) :
    AtDesk (StateM σ) Kubeconfig := do
  let file ← c.store.loadAtDesk
  let outcome ← AtDesk.ofExcept (activate file name c.preferred)
  c.commitBy hand outcome
  pure outcome.config

variable {c : Committer (StateM σ)} {kept : Desk × σ → Option String} {s : Desk × σ}

theorem perform_write (config : Kubeconfig) : c.perform (.write config) = c.write config := rfl

theorem perform_swap : c.perform .swap = c.swap >>= fun _ ↦ pure () := rfl

theorem result_record (hc : c.Dependable kept) (name : String) (s : Desk × σ) :
    AtDesk.result (c.record name) s = AtDesk.result (c.pointer.write name) s := by
  rw [record, AtDesk.result_mk_bind, hc.write name s]
  exact Prod.ext (hc.write name s).symm rfl

theorem result_load {file : Kubeconfig} (hload : c.store.load s.1.disk = .ok file) :
    AtDesk.result (c.store.loadAtDesk : AtDesk (StateM σ) Kubeconfig) s = (.ok file, s) := by
  rw [Store.loadAtDesk, AtDesk.result_bind, AtDesk.result_disk]
  simp only [AtDesk.result_ofExcept, hload]

theorem result_load_error {failure : Failure} (hload : c.store.load s.1.disk = .error failure) :
    AtDesk.result (c.store.loadAtDesk : AtDesk (StateM σ) Kubeconfig) s = (.error failure, s) := by
  rw [Store.loadAtDesk, AtDesk.result_bind, AtDesk.result_disk]
  simp only [AtDesk.result_ofExcept, hload]

theorem result_writeBy_of_load_error {failure : Failure}
    (hload : c.store.load s.1.disk = .error failure) (hand : Hand (StateM σ))
    (config : Kubeconfig) : AtDesk.result (c.writeBy hand config) s = (.error failure, s) := by
  rw [writeBy, AtDesk.result_bind, result_load_error hload]

theorem result_writeBy {file : Kubeconfig} (hload : c.store.load s.1.disk = .ok file)
    (hand : Hand (StateM σ)) (config : Kubeconfig) :
    AtDesk.result (c.writeBy hand config) s =
      if c.isCurrent file config then (.ok (), s)
      else
        match merge file config config.current c.preferred with
        | .error failure => (.error failure, s)
        | .ok outcome =>
          match AtDesk.result (AtDesk.elsewhere (c.verify s.1.disk outcome.config)) s with
          | (.error failure, next) => (.error failure, next)
          | (.ok (), next) => AtDesk.result (c.commitBy hand outcome) next := by
  rw [writeBy, AtDesk.result_bind, result_load hload]
  by_cases hcurrent : c.isCurrent file config = true
  · simp only [hcurrent, if_true, AtDesk.result_pure]
  · simp only [hcurrent, if_false, AtDesk.result_bind, AtDesk.result_ofExcept, AtDesk.result_disk,
      Bool.false_eq_true]
    cases merge file config config.current c.preferred with
    | error failure => rfl
    | ok outcome =>
      simp only [commitBy, AtDesk.result_bind]
      rcases AtDesk.result (AtDesk.elsewhere (c.verify s.1.disk outcome.config)) s with
        ⟨failure | _, next⟩
      · rfl
      · rfl

theorem result_write {file : Kubeconfig} (hload : c.store.load s.1.disk = .ok file)
    (config : Kubeconfig) :
    AtDesk.result (c.write config) s =
      if c.isCurrent file config then (.ok (), s)
      else
        match merge file config config.current c.preferred with
        | .error failure => (.error failure, s)
        | .ok outcome =>
          match AtDesk.result (AtDesk.elsewhere (c.verify s.1.disk outcome.config)) s with
          | (.error failure, next) => (.error failure, next)
          | (.ok (), next) => AtDesk.result (c.commit outcome) next :=
  result_writeBy hload AtDesk.follow config

theorem result_restoreBy (c : Committer (StateM σ)) (hand : Hand (StateM σ)) (name : String)
    (s : Desk × σ) :
    AtDesk.result (c.restoreBy hand name) s =
      match c.store.load s.1.disk with
      | .error failure => (.error failure, s)
      | .ok file =>
        match activate file name c.preferred with
        | .error failure => (.error failure, s)
        | .ok outcome =>
          match AtDesk.result (c.commitBy hand outcome) s with
          | (.error failure, next) => (.error failure, next)
          | (.ok (), next) => (.ok outcome.config, next) := by
  rw [restoreBy, AtDesk.result_bind]
  cases hload : c.store.load s.1.disk with
  | error failure => rw [result_load_error hload]
  | ok file =>
    simp only [result_load hload, AtDesk.result_bind, AtDesk.result_ofExcept]
    cases activate file name c.preferred with
    | error failure => rfl
    | ok outcome =>
      simp only
      rcases AtDesk.result (c.commitBy hand outcome) s with ⟨failure | _, next⟩
      · rfl
      · rfl

theorem result_swapBy (c : Committer (StateM σ)) (hand : Hand (StateM σ)) (s : Desk × σ) :
    AtDesk.result (c.swapBy hand) s =
      match AtDesk.result c.pointer.read s with
      | (.error failure, next) => (.error failure, next)
      | (.ok none, next) => (.error (.navigation "no previous context to switch to"), next)
      | (.ok (some name), next) => AtDesk.result (c.restoreBy hand name) next := by
  rw [swapBy, AtDesk.result_bind]
  rcases AtDesk.result c.pointer.read s with ⟨failure | _ | name, next⟩
  · rfl
  · rfl
  · simp only [restoreBy, commitBy, AtDesk.result_bind]
    rcases AtDesk.result (c.store.loadAtDesk : AtDesk (StateM σ) Kubeconfig) next with
      ⟨failure | file, loaded⟩
    · rfl
    · simp only [AtDesk.result_ofExcept]
      cases activate file name c.preferred with
      | error failure => rfl
      | ok outcome =>
        simp only
        rcases AtDesk.result (c.store.saveBy hand outcome.config) loaded with ⟨failure | _, saved⟩
        · rfl
        · rfl

theorem result_swap_of_none (hc : c.Dependable kept) (hkept : kept s = none) :
    AtDesk.result c.swap s = (.error (.navigation "no previous context to switch to"), s) := by
  rw [swap, result_swapBy, hc.read, hkept]

theorem result_swap {file : Kubeconfig} {name : String} (hc : c.Dependable kept)
    (hkept : kept s = some name) (hload : c.store.load s.1.disk = .ok file) :
    AtDesk.result c.swap s =
      match activate file name c.preferred with
      | .error failure => (.error failure, s)
      | .ok outcome =>
        match AtDesk.result (c.commit outcome) s with
        | (.error failure, next) => (.error failure, next)
        | (.ok (), next) => (.ok outcome.config, next) := by
  rw [swap, result_swapBy, hc.read, hkept]
  simp only [result_restoreBy, hload]
  rfl

/-- A commit fails with a step of the save and with nothing else. -/
theorem commit_cases (hc : c.Dependable kept) (outcome : Outcome) (s : Desk × σ) :
    (∃ failure next, (s.1.disk.after (c.store.savePlan outcome.config)).2 = .error failure ∧
        AtDesk.result (c.commit outcome) s = (.error failure, next) ∧
        next.1.disk = (s.1.disk.after (c.store.savePlan outcome.config)).1 ∧
        kept next = kept s) ∨
      ∃ next, (s.1.disk.after (c.store.savePlan outcome.config)).2 = .ok () ∧
        AtDesk.result (c.commit outcome) s = (.ok (), next) ∧
        next.1.disk.look c.store.path =
          (s.1.disk.after (c.store.savePlan outcome.config)).1.look c.store.path ∧
        kept next = recorded outcome.last := by
  have hsave := AtDesk.result_follow (c.store.savePlan outcome.config) s
  have hdisk := (Desk.disk_of_follow s.1 (c.store.savePlan outcome.config)).1
  have hkept := hc.kept_save outcome.config s
  rw [Store.save, Store.saveBy, hsave] at hkept
  rw [commit, commitBy, AtDesk.result_bind, Store.saveBy, hsave]
  cases hanswer : (s.1.disk.after (c.store.savePlan outcome.config)).2 with
  | error failure => exact Or.inl ⟨failure, _, rfl, rfl, hdisk, hkept⟩
  | ok =>
    refine Or.inr ⟨(AtDesk.result (c.pointer.write outcome.last)
      ((s.1.follow (c.store.savePlan outcome.config)).1, s.2)).2, rfl, ?_, ?_, hc.kept_write _ _⟩
    · simp only [result_record hc]
      exact Prod.ext (hc.write _ _) rfl
    · rw [hc.look_write, hdisk]

/-- File errors aside: what is saved can be read back, and a save goes right unless there is a
kubeconfig to be left as it is. -/
def Saves (c : Committer (StateM σ)) (s : Desk × σ) (config : Kubeconfig) : Prop :=
  config.ReadsBack ∧ (s.1.disk.holds c.store.path = true ∨
    (s.1.disk.after (c.store.savePlan config)).2 = .ok ())

theorem commit_settled (hc : c.Dependable kept) {outcome : Outcome} (hs : c.Settled kept s)
    (hsaves : c.Saves s outcome.config) (hsound : outcome.config.Sound)
    (hleads : outcome.config.LeadsElsewhere (recorded outcome.last)) :
    c.Settled kept (AtDesk.result (c.commit outcome) s).2 := by
  obtain ⟨file, hload, hfile, hother⟩ := hs
  obtain ⟨hback, hholds⟩ := hsaves
  have hafter : s.1.disk.after (c.store.savePlan outcome.config) = (_, _) := rfl
  rcases commit_cases hc outcome s with ⟨failure, next, hanswer, hresult, hdisk, hkept⟩ |
    ⟨next, hanswer, hresult, hlook, hkept⟩
  · rw [hresult]
    rw [hanswer] at hafter
    have hthere : s.1.disk.holds c.store.path = true := by
      refine hholds.resolve_right fun hok ↦ ?_
      rw [hanswer] at hok
      cases hok
    have hleft := Store.load_of_savePlan_error hload hthere hafter
    refine ⟨file, ?_, hfile, ?_⟩
    · rw [hdisk]
      exact hleft.1
    · rwa [hkept]
  · rw [hresult]
    rw [hanswer] at hafter
    refine ⟨outcome.config, ?_, hsound, ?_⟩
    · rw [Store.load_of_look hlook]
      exact Store.load_of_savePlan_ok hback hafter
    · rwa [hkept]

/-! ### Runs -/

/-- What an action is about to save, with the consent of the verifier. -/
def Prepares (c : Committer (StateM σ)) (kept : Desk × σ → Option String) (s : Desk × σ) :
    Action → Outcome → Prop
  | .write config, outcome => ∃ file, c.store.load s.1.disk = .ok file ∧
      c.isCurrent file config = false ∧
      merge file config config.current c.preferred = .ok outcome ∧
      (AtDesk.result (AtDesk.elsewhere (c.verify s.1.disk outcome.config)) s).1 = .ok ()
  | .swap, outcome => ∃ name file, kept s = some name ∧ c.store.load s.1.disk = .ok file ∧
      activate file name c.preferred = .ok outcome

/-- Why an action is refused: the verifier rejects what would be saved, or no name is kept. -/
def Refuses (c : Committer (StateM σ)) (kept : Desk × σ → Option String) (s : Desk × σ) :
    Action → Failure → Prop
  | .write config, failure => ∃ file outcome, c.store.load s.1.disk = .ok file ∧
      merge file config config.current c.preferred = .ok outcome ∧
      (AtDesk.result (AtDesk.elsewhere (c.verify s.1.disk outcome.config)) s).1 = .error failure
  | .swap, failure => kept s = none ∧ failure = .navigation "no previous context to switch to"

/-- Along a run, what is about to be saved can be saved. -/
def FilesHold (c : Committer (StateM σ)) (kept : Desk × σ → Option String) :
    List Action → Desk × σ → Prop
  | [], _ => True
  | action :: rest, s =>
    (∀ outcome, c.Prepares kept s action outcome → c.Saves s outcome.config) ∧
      c.FilesHold kept rest (c.step s action)

/-- In a settled state an action is refused and leaves the files, has nothing to do, or commits what
is sound and leads back to another context. -/
theorem perform_cases (hpreferred : c.preferred ≠ "") (hc : c.Dependable kept)
    (hs : c.Settled kept s) {action : Action} (haction : action.Resolves) :
    (∃ answer next, AtDesk.result (c.perform action) s = (answer, next) ∧ next.1 = s.1 ∧
        kept next = kept s ∧
        ∀ failure, answer = .error failure → c.Refuses kept s action failure) ∨
      ∃ outcome next, c.Prepares kept s action outcome ∧ outcome.config.Sound ∧
        outcome.config.LeadsElsewhere (recorded outcome.last) ∧ next.1 = s.1 ∧
        kept next = kept s ∧
        AtDesk.result (c.perform action) s = AtDesk.result (c.commit outcome) next := by
  obtain ⟨file, hload, hsound, hleads⟩ := hs
  cases action with
  | write config =>
    obtain ⟨target, htarget⟩ := haction
    rw [perform_write, result_write hload]
    by_cases hcurrent : c.isCurrent file config = true
    · rw [if_pos hcurrent]
      exact Or.inl ⟨_, s, rfl, rfl, rfl, fun failure h ↦ by cases h⟩
    · obtain ⟨outcome, houtcome, hsound', hleads'⟩ := merge_settles hpreferred hsound htarget
      simp only [if_neg hcurrent, houtcome]
      have hkept := hc.kept_verify outcome.config s
      have hdesk : (AtDesk.result (AtDesk.elsewhere (c.verify s.1.disk outcome.config)) s).2.1 =
        s.1 := by rw [AtDesk.result_elsewhere]
      rcases hverify : AtDesk.result (AtDesk.elsewhere (c.verify s.1.disk outcome.config)) s with
        ⟨failure | _, next⟩
      · rw [hverify] at hkept hdesk
        refine Or.inl ⟨_, next, rfl, hdesk, hkept, ?_⟩
        rintro _ ⟨⟩
        exact ⟨file, outcome, hload, houtcome, by rw [hverify]⟩
      · rw [hverify] at hkept hdesk
        refine Or.inr ⟨outcome, next, ?_, hsound', hleads', hdesk, hkept, rfl⟩
        exact ⟨file, hload, by simpa using hcurrent, houtcome, by rw [hverify]⟩
  | swap =>
    rw [perform_swap, AtDesk.result_bind]
    cases hkept : kept s with
    | none =>
      rw [result_swap_of_none hc hkept]
      refine Or.inl ⟨_, s, rfl, rfl, hkept, ?_⟩
      rintro _ ⟨⟩
      exact ⟨hkept, rfl⟩
    | some name =>
      obtain ⟨hname, hother⟩ := hleads name hkept
      obtain ⟨outcome, houtcome, hsound', hleads'⟩ :=
        activate_settles hpreferred hsound hname hother
      refine Or.inr ⟨outcome, s, ⟨name, file, hkept, hload, houtcome⟩, hsound', hleads', rfl,
        hkept, ?_⟩
      simp only [result_swap hc hkept hload, houtcome]
      rcases AtDesk.result (c.commit outcome) s with ⟨failure | _, next⟩
      · rfl
      · rfl

theorem settled_of_eq {next : Desk × σ} (hdesk : next.1 = s.1) (hkept : kept next = kept s)
    (hs : c.Settled kept s) : c.Settled kept next := by
  rwa [Settled, hdesk, hkept]

/-- What is settled stays so, whatever the answer to an action. -/
theorem step_settled (hpreferred : c.preferred ≠ "") (hc : c.Dependable kept)
    (hs : c.Settled kept s) {action : Action} (haction : action.Resolves)
    (hfiles : ∀ outcome, c.Prepares kept s action outcome → c.Saves s outcome.config) :
    c.Settled kept (c.step s action) := by
  unfold step
  rcases perform_cases hpreferred hc hs haction with ⟨answer, next, hresult, hdesk, hkept, -⟩ |
    ⟨outcome, next, hprepares, hsound, hleads, hdesk, hkept, hresult⟩
  · rw [hresult]
    exact settled_of_eq hdesk hkept hs
  · rw [hresult]
    have hsaves : c.Saves next outcome.config := by
      rw [Saves, hdesk]
      exact hfiles outcome hprepares
    exact commit_settled hc (settled_of_eq hdesk hkept hs) hsaves hsound hleads

theorem run_settled (hpreferred : c.preferred ≠ "") (hc : c.Dependable kept)
    {actions : List Action} (hactions : ∀ action ∈ actions, action.Resolves)
    (hfiles : c.FilesHold kept actions s) (hs : c.Settled kept s) :
    c.Settled kept (c.run actions s) := by
  induction actions generalizing s with
  | nil => exact hs
  | cons action rest ih =>
    obtain ⟨hfirst, hrest⟩ := hfiles
    refine ih (fun other hother ↦ hactions other (List.mem_cons_of_mem _ hother)) hrest ?_
    exact step_settled hpreferred hc hs (hactions action List.mem_cons_self) hfirst

/-- In a settled state an action fails only when it is refused, or with a step of the save. -/
theorem refuses_of_error (hpreferred : c.preferred ≠ "") (hc : c.Dependable kept)
    (hs : c.Settled kept s) {action : Action} (haction : action.Resolves) {failure : Failure}
    (h : (AtDesk.result (c.perform action) s).1 = .error failure) :
    c.Refuses kept s action failure ∨ ∃ outcome, c.Prepares kept s action outcome ∧
      (s.1.disk.after (c.store.savePlan outcome.config)).2 = .error failure := by
  rcases perform_cases hpreferred hc hs haction with ⟨answer, next, hresult, -, -, hrefuses⟩ |
    ⟨outcome, next, hprepares, -, -, hdesk, -, hresult⟩
  · rw [hresult] at h
    exact Or.inl (hrefuses failure h)
  · rw [hresult] at h
    refine Or.inr ⟨outcome, hprepares, ?_⟩
    rw [← hdesk]
    rcases commit_cases hc outcome next with ⟨failure', last, hanswer, hcommit, -⟩ |
      ⟨last, -, hcommit, -⟩
    · rw [hcommit] at h
      rwa [hanswer]
    · rw [hcommit] at h
      cases h

/-- After any run from a settled state, whatever the verifier rejects, every context finds its
entries, the current context exists, and the name that is kept leads to another context. So an
action that is asked for next fails only because no name is kept, because the verifier rejects, or
with a step of the save. -/
theorem run_keeps_settled (c : Committer (StateM σ)) (kept : Desk × σ → Option String)
    (actions : List Action) (s : Desk × σ) (hpreferred : c.preferred ≠ "")
    (hc : c.Dependable kept) (hactions : ∀ action ∈ actions, action.Resolves)
    (hfiles : c.FilesHold kept actions s) (hs : c.Settled kept s) :
    c.Settled kept (c.run actions s) ∧
      ∀ action failure, action.Resolves →
        (AtDesk.result (c.perform action) (c.run actions s)).1 = .error failure →
        c.Refuses kept (c.run actions s) action failure ∨
          ∃ outcome, c.Prepares kept (c.run actions s) action outcome ∧
            ((c.run actions s).1.disk.after (c.store.savePlan outcome.config)).2 =
              .error failure := by
  have hsettled := run_settled hpreferred hc hactions hfiles hs
  exact ⟨hsettled, fun action failure haction h ↦
    refuses_of_error hpreferred hc hsettled haction h⟩

/-- A committer that keeps the name in memory, and that rejects clusters without a server. -/
def watchful : Committer (StateM (Option String)) where
  store := { path := "k" }
  pointer := Pointer.elsewhere
    { read := ExceptT.mk fun kept ↦ (.ok kept, kept)
      write := fun name ↦ ExceptT.mk fun _ ↦ (.ok (), recorded name) }
  verify _ config :=
    if config.clusters.entries.all fun e ↦ e.2.server != "" then pure ()
    else throw (.config "no server")
  preferred := "p"

theorem dependable_watchful : watchful.Dependable Prod.snd where
  read _ := rfl
  write _ _ := rfl
  kept_write _ _ := rfl
  look_write _ _ := rfl
  kept_save _ _ := by rw [Store.save, Store.saveBy, AtDesk.result_follow]
  kept_verify config _ := by
    rw [AtDesk.result_elsewhere, watchful]
    simp only
    split
    · rfl
    · rfl

/-- A kubeconfig with one target. -/
def served (server : String) : Kubeconfig := single "t" { server } {} none

/-- A step back that is refused, a target that is rejected, and one that is accepted. -/
theorem run_keeps_settled_watchful :
    let actions : List Action := [.swap, .write (served ""), .write (served "s")]
    let s : Desk × Option String := ({ disk := {} }, none)
    watchful.preferred ≠ "" ∧ watchful.Dependable Prod.snd ∧
      (∀ action ∈ actions, action.Resolves) ∧ watchful.FilesHold Prod.snd actions s ∧
      watchful.Settled Prod.snd s ∧ watchful.Settled Prod.snd (watchful.run actions s) := by
  intro actions s
  have hpreferred : watchful.preferred ≠ "" := by decide
  have hactions : ∀ action ∈ actions, action.Resolves := by
    intro action haction
    simp only [actions, List.mem_cons, List.not_mem_nil, or_false] at haction
    rcases haction with rfl | rfl | rfl
    · trivial
    · exact ⟨_, rfl⟩
    · exact ⟨_, rfl⟩
  have hload : watchful.store.load s.1.disk = .ok {} := rfl
  have hs : watchful.Settled Prod.snd s := by
    refine ⟨{}, hload, ⟨fun name hname ↦ ?_, Or.inl rfl⟩, fun name hname ↦ ?_⟩
    · cases hname
    · cases hname
  have hrefused : watchful.step s .swap = s := rfl
  have hrejected : watchful.step s (.write (served "")) = s := rfl
  have hfiles : watchful.FilesHold Prod.snd actions s := by
    refine ⟨?_, ?_, ?_, trivial⟩
    · rintro outcome ⟨name, file, hname, -⟩
      cases hname
    · rw [hrefused]
      rintro outcome ⟨file, hfile, -, hmerge, hverify⟩
      obtain rfl : file = {} := Except.ok.inj (hfile.symm.trans hload)
      cases hmerge
      cases hverify
    · rw [hrefused, hrejected]
      rintro outcome ⟨file, hfile, -, hmerge, -⟩
      obtain rfl : file = {} := Except.ok.inj (hfile.symm.trans hload)
      have hchecked : (merge {} (served "s") "t" "p").toOption.all (fun outcome ↦
          decide outcome.config.ReadsBack &&
            (({} : Disk).after (watchful.store.savePlan outcome.config)).2.isOk) = true := by
        decide +kernel
      have hmerged : merge {} (served "s") "t" "p" = .ok outcome := hmerge
      rw [hmerged] at hchecked
      obtain ⟨hback, hsaved⟩ := Bool.and_eq_true_iff.1 hchecked
      refine ⟨of_decide_eq_true hback, Or.inr ?_⟩
      cases hanswer : (s.1.disk.after (watchful.store.savePlan outcome.config)).2 with
      | error failure =>
        rw [hanswer] at hsaved
        cases hsaved
      | ok => rfl
  exact ⟨hpreferred, dependable_watchful, hactions, hfiles, hs,
    (run_keeps_settled watchful Prod.snd actions s hpreferred dependable_watchful hactions hfiles
      hs).1⟩

end Committer

end Wayfinder.Switch
