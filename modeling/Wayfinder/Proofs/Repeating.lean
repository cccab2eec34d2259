import Wayfinder.Proofs.Returning
import Wayfinder.Proofs.Sameness

/-!
Switching to where the kubeconfig already leads. Main statement: after a switch that went right, any
number of switches to the same target, under whatever names, go right as well, change nothing and
ask no verifier (`write_again_idle`).
-/

set_option autoImplicit false
set_option relaxedAutoImplicit false

namespace Wayfinder.Switch.Committer

open Files Kubeconfig

variable {σ : Type} {c : Committer (StateM σ)} {s : Desk × σ} {file x y : Kubeconfig}

/-- What is current stays so under other names. -/
theorem isCurrent_trans (h : c.isCurrent file x = true)
    (hsame : sameTarget x x.current y y.current = true) : c.isCurrent file y = true := by
  obtain ⟨hnow, hfile⟩ := isCurrent_iff.1 h
  exact isCurrent_iff.2 ⟨hnow, sameTarget_trans hfile hsame⟩

/-- A write of what is current has nothing to do, and asks nothing. -/
theorem write_of_isCurrent (hload : c.store.load s.1.disk = .ok file)
    (h : c.isCurrent file x = true) :
    AtDesk.result (c.write x) s = (.ok (), s) ∧ c.asked (·.write x) s = [] := by
  rw [asked_write hload, questions, result_write hload, if_pos h, if_pos h]
  exact ⟨rfl, rfl⟩

/-- A run stays where each of its actions does. -/
theorem run_eq_self {actions : List Action} (h : ∀ action ∈ actions, c.step s action = s) :
    c.run actions s = s := by
  induction actions with
  | nil => rfl
  | cons action rest ih =>
    rw [run, List.foldl_cons, h action List.mem_cons_self]
    exact ih fun other hother ↦ h other (List.mem_cons_of_mem _ hother)

/-- Once a write went right, whatever entries the kubeconfig held, writes of the same target leave
the files, the pointer and all else as they are, go right, and ask no verifier. -/
theorem write_again_idle (c : Committer (StateM σ)) (file x : Kubeconfig)
    (again : List Kubeconfig) (s next : Desk × σ) (hpreferred : c.preferred ≠ "")
    (hspares : c.SparesKubeconfig) (hload : c.store.load s.1.disk = .ok file)
    (hcurrent : CurrentExists file)
    (hback : ∀ outcome, merge file x x.current c.preferred = .ok outcome →
      outcome.config.ReadsBack)
    (hwrite : AtDesk.result (c.write x) s = (.ok (), next))
    (hsame : ∀ y ∈ again, sameTarget x x.current y y.current = true) :
    c.run (again.map .write) next = next ∧
      ∀ y ∈ again, AtDesk.result (c.write y) next = (.ok (), next) ∧
        c.asked (·.write y) next = [] := by
  obtain ⟨saved, hsaved, hnow⟩ :=
    isCurrent_of_write hpreferred hspares hload hcurrent hback hwrite
  have hidle : ∀ y ∈ again, AtDesk.result (c.write y) next = (.ok (), next) ∧
      c.asked (·.write y) next = [] := fun y hy ↦
    write_of_isCurrent hsaved (isCurrent_trans hnow (hsame y hy))
  refine ⟨run_eq_self fun action haction ↦ ?_, hidle⟩
  obtain ⟨y, hy, rfl⟩ := List.mem_map.1 haction
  rw [step, perform_write, (hidle y hy).1]

/-- A kubeconfig in which the canonical name is taken, by a target without a user. -/
def taken : Kubeconfig where
  clusters := NameMap.ofList [("p", { server := "a" })]
  contexts := NameMap.ofList [("p", { cluster := "p" })]
  current := "p"

/-- The files, with that kubeconfig. -/
def takenDisk : Disk := ({} : Disk).put "/k" (.file (Text.encode taken.render) usualMode)

theorem load_takenDisk : watchful.store.load takenDisk = .ok taken := by
  have hplace : takenDisk.locate watchful.store.path = .ok "/k" := rfl
  have hentry : takenDisk.entry? "/k" = some (.file (Text.encode taken.render) usualMode) :=
    Disk.entry?_put_self _ _ (by decide)
  have hread : takenDisk.read watchful.store.path = .ok (Text.encode taken.render) := by
    rw [Disk.read, Disk.look_eq_ok_iff.2 ⟨_, hplace, hentry⟩]
  exact Store.load_of_read hread (by decide +kernel)

/-- The target of `userless` under other names, next to another one. -/
def renamed : Kubeconfig where
  clusters := NameMap.ofList [("a", { server := "a" }), ("d", { server := "https://d" })]
  contexts := NameMap.ofList
    [("one", { cluster := "a" }), ("other", { cluster := "d", namespaceName := some "a" })]
  current := "other"

/-- What is saved for the target of `userless` can be read back. -/
theorem readsBack_taken {outcome : Outcome}
    (h : merge taken userless userless.current watchful.preferred = .ok outcome) :
    outcome.config.ReadsBack := by
  have hchecked : (merge taken userless userless.current watchful.preferred).toOption.all
      (fun outcome ↦ decide outcome.config.ReadsBack) = true := by
    decide +kernel
  rw [h] at hchecked
  exact of_decide_eq_true hchecked

/-- A target without a user, and twice more under other names. -/
theorem write_again_idle_userless :
    let s : Desk × Option String := ({ disk := takenDisk }, none)
    ∃ next, watchful.preferred ≠ "" ∧ watchful.SparesKubeconfig ∧
      watchful.store.load s.1.disk = .ok taken ∧ CurrentExists taken ∧
      AtDesk.result (watchful.write userless) s = (.ok (), next) ∧
      sameTarget userless userless.current renamed renamed.current = true ∧
      watchful.run ([renamed, renamed].map .write) next = next ∧
      ∀ y ∈ [renamed, renamed], AtDesk.result (watchful.write y) next = (.ok (), next) ∧
        watchful.asked (·.write y) next = [] := by
  intro s
  have hpreferred : watchful.preferred ≠ "" := by decide
  have hspares : watchful.SparesKubeconfig := fun _ _ _ h ↦ h
  have hload : watchful.store.load s.1.disk = .ok taken := load_takenDisk
  have hcurrent : CurrentExists taken := Or.inr (by decide)
  have hsame : sameTarget userless userless.current renamed renamed.current = true := by decide
  have hsames : ∀ y ∈ [renamed, renamed],
      sameTarget userless userless.current y y.current = true := by simpa using hsame
  obtain ⟨next, hwrite⟩ : ∃ next,
      AtDesk.result (watchful.write userless) s = (.ok (), next) := by
    have hsaved : (AtDesk.result (watchful.write userless) s).1.isOk = true := by
      rw [result_write hload]
      decide +kernel
    obtain ⟨_, next, hwrite⟩ := AtDesk.exists_of_isOk hsaved
    exact ⟨next, hwrite⟩
  exact ⟨next, hpreferred, hspares, hload, hcurrent, hwrite, hsame,
    write_again_idle watchful taken userless [renamed, renamed] s next hpreferred hspares hload
      hcurrent (fun _ ↦ readsBack_taken) hwrite hsames⟩

end Wayfinder.Switch.Committer
