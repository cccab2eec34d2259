import Wayfinder.Proofs.Committing

/-!
What a verifier is asked in the course of a switch. The questions are noted in a list next to the
state of a committer (`Committer.noting`). Noting changes nothing else, and a write asks about the
kubeconfig that its merge comes to, or nothing (`Committer.asked_writeBy`); a swap asks nothing
(`Committer.asked_swapBy`). This does not depend on whose hand saves the kubeconfig.
-/

set_option autoImplicit false
set_option relaxedAutoImplicit false

namespace Wayfinder.Switch.Committer

open Files

variable {σ : Type}

/-- Work that leaves a list of kubeconfigs alone. -/
def aside {α : Type} (x : AtDesk (StateM σ) α) : AtDesk (StateM (σ × List Kubeconfig)) α :=
  ExceptT.mk fun desk s ↦
    let r := AtDesk.result x (desk, s.1)
    ((r.1, r.2.1), r.2.2, s.2)

/-- The same hand, which leaves a list of kubeconfigs alone. -/
def handAside (hand : Hand (StateM σ)) : Hand (StateM (σ × List Kubeconfig)) :=
  fun plan ↦ aside (hand plan)

/-- The same committer, which notes every kubeconfig that its verifier is asked about. -/
def noting (c : Committer (StateM σ)) : Committer (StateM (σ × List Kubeconfig)) where
  store := c.store
  pointer :=
    { read := aside c.pointer.read
      write := fun name ↦ aside (c.pointer.write name) }
  verify disk config := ExceptT.mk fun s ↦
    let r := (c.verify disk config).run.run s.1
    (r.1, r.2, s.2 ++ [config])
  preferred := c.preferred

/-- An answer and what is left, with a list of kubeconfigs next to it. -/
def beside {α : Type} (r : Except Failure α × (Desk × σ)) (asked : List Kubeconfig) :
    Except Failure α × (Desk × (σ × List Kubeconfig)) :=
  (r.1, r.2.1, r.2.2, asked)

/-- The kubeconfigs that the verifier is asked about in the course of some work. -/
def asked {α : Type} (c : Committer (StateM σ))
    (work : Committer (StateM (σ × List Kubeconfig)) → AtDesk (StateM (σ × List Kubeconfig)) α)
    (s : Desk × σ) : List Kubeconfig :=
  (AtDesk.result (work c.noting) (s.1, s.2, [])).2.2.2

/-- What a write asks the verifier about, if the kubeconfig can be loaded. -/
def questions (c : Committer (StateM σ)) (file config : Kubeconfig) : List Kubeconfig :=
  if c.isCurrent file config then []
  else
    match merge file config config.current c.preferred with
    | .error _ => []
    | .ok outcome => [outcome.config]

variable {c : Committer (StateM σ)} {s : Desk × σ} {list : List Kubeconfig} {file : Kubeconfig}

theorem result_noting_record (name : String) :
    AtDesk.result (c.noting.record name) (s.1, s.2, list) =
      beside (AtDesk.result (c.record name) s) list := by
  have hwrite : AtDesk.result (c.noting.pointer.write name) (s.1, s.2, list) =
      beside (AtDesk.result (c.pointer.write name) s) list := rfl
  rw [record, record, AtDesk.result_mk_bind, AtDesk.result_mk_bind, hwrite]
  rcases AtDesk.result (c.pointer.write name) s with ⟨failure | _, next⟩
  · rfl
  · rfl

theorem result_noting_commitBy (hand : Hand (StateM σ)) (outcome : Outcome) :
    AtDesk.result (c.noting.commitBy (handAside hand) outcome) (s.1, s.2, list) =
      beside (AtDesk.result (c.commitBy hand outcome) s) list := by
  have hsave : AtDesk.result (c.noting.store.saveBy (handAside hand) outcome.config)
      (s.1, s.2, list) = beside (AtDesk.result (c.store.saveBy hand outcome.config) s) list := rfl
  rw [commitBy, commitBy, AtDesk.result_bind, AtDesk.result_bind, hsave]
  rcases AtDesk.result (c.store.saveBy hand outcome.config) s with ⟨failure | _, next⟩
  · rfl
  · exact result_noting_record outcome.last

/-- Noting changes nothing else, and what is noted follows from the kubeconfig that is there. -/
theorem result_noting_writeBy (hload : c.store.load s.1.disk = .ok file) (hand : Hand (StateM σ))
    (config : Kubeconfig) :
    AtDesk.result (c.noting.writeBy (handAside hand) config) (s.1, s.2, list) =
      beside (AtDesk.result (c.writeBy hand config) s) (list ++ c.questions file config) := by
  have hnoting : c.noting.store.load (s.1, s.2, list).1.disk = .ok file := hload
  rw [result_writeBy hload, result_writeBy hnoting, questions]
  by_cases hcurrent : c.isCurrent file config = true
  · have hcurrent' : c.noting.isCurrent file config = true := hcurrent
    rw [if_pos hcurrent, if_pos hcurrent, if_pos hcurrent', List.append_nil]
    rfl
  · have hcurrent' : ¬ c.noting.isCurrent file config = true := hcurrent
    rw [if_neg hcurrent, if_neg hcurrent, if_neg hcurrent']
    have hpreferred : c.noting.preferred = c.preferred := rfl
    rw [hpreferred]
    cases merge file config config.current c.preferred with
    | error failure =>
      simp only [List.append_nil]
      rfl
    | ok outcome =>
      have hverify :
          AtDesk.result (AtDesk.elsewhere (c.noting.verify s.1.disk outcome.config))
              (s.1, s.2, list) =
            beside (AtDesk.result (AtDesk.elsewhere (c.verify s.1.disk outcome.config)) s)
              (list ++ [outcome.config]) := rfl
      simp only [hverify]
      rcases AtDesk.result (AtDesk.elsewhere (c.verify s.1.disk outcome.config)) s with
        ⟨failure | _, next⟩
      · rfl
      · exact result_noting_commitBy hand outcome

theorem asked_writeBy (hload : c.store.load s.1.disk = .ok file) (hand : Hand (StateM σ))
    (config : Kubeconfig) :
    c.asked (·.writeBy (handAside hand) config) s = c.questions file config := by
  rw [asked, result_noting_writeBy hload, beside, List.nil_append]

theorem asked_write (hload : c.store.load s.1.disk = .ok file) (config : Kubeconfig) :
    c.asked (·.write config) s = c.questions file config :=
  asked_writeBy hload AtDesk.follow config

theorem result_noting_restoreBy (hand : Hand (StateM σ)) (name : String) :
    AtDesk.result (c.noting.restoreBy (handAside hand) name) (s.1, s.2, list) =
      beside (AtDesk.result (c.restoreBy hand name) s) list := by
  have hstore : c.noting.store = c.store := rfl
  have hpreferred : c.noting.preferred = c.preferred := rfl
  rw [result_restoreBy, result_restoreBy, hstore, hpreferred]
  cases c.store.load s.1.disk with
  | error failure => rfl
  | ok file =>
    simp only
    cases activate file name c.preferred with
    | error failure => rfl
    | ok outcome =>
      simp only [result_noting_commitBy]
      rcases AtDesk.result (c.commitBy hand outcome) s with ⟨failure | _, next⟩
      · rfl
      · rfl

theorem result_noting_swapBy (hand : Hand (StateM σ)) :
    AtDesk.result (c.noting.swapBy (handAside hand)) (s.1, s.2, list) =
      beside (AtDesk.result (c.swapBy hand) s) list := by
  have hread : AtDesk.result c.noting.pointer.read (s.1, s.2, list) =
      beside (AtDesk.result c.pointer.read s) list := rfl
  rw [result_swapBy, result_swapBy, hread]
  rcases AtDesk.result c.pointer.read s with ⟨failure | _ | name, next⟩
  · rfl
  · rfl
  · exact result_noting_restoreBy hand name

theorem asked_swapBy (c : Committer (StateM σ)) (hand : Hand (StateM σ)) (s : Desk × σ) :
    c.asked (·.swapBy (handAside hand)) s = [] := by
  rw [asked, result_noting_swapBy, beside]

end Wayfinder.Switch.Committer
