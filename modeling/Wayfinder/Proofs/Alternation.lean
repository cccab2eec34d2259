import Wayfinder.Proofs.Merging
import Mathlib.Algebra.Ring.Parity

/-!
Going back and forth. Main statement: after a first switch, every further step back succeeds, and
the two targets take turns for ever (`toggles_alternate`). The kubeconfig itself need not return to
what it was, since entries may end up exchanged; what each step keeps is that one target is current
and that the recorded name leads to the other (`Poised`).
-/

set_option autoImplicit false
set_option relaxedAutoImplicit false

namespace Wayfinder.Switch

open Kubeconfig

/-- The current context stands for `here`, and the name that leads back for `there`. -/
structure Poised (here there : Meaning) (outcome : Outcome) : Prop where
  here : outcome.config.meaning? outcome.config.current = some here
  there : outcome.config.meaning? outcome.last = some there

/-- A step back, by the name that the last switch answered. -/
def toggle (preferred : String) (outcome : Outcome) : Except Failure Outcome :=
  activate outcome.config outcome.last preferred

/-- A number of steps back. -/
def toggles (preferred : String) : Nat → Outcome → Except Failure Outcome
  | 0, outcome => .ok outcome
  | count + 1, outcome => toggles preferred count outcome >>= toggle preferred

/-- What brings the second of the two targets. -/
inductive FirstSwitch
  /-- Making a context of the kubeconfig current. -/
  | activate (source : String)
  /-- Taking in a context of another kubeconfig. -/
  | merge (source : Kubeconfig) (name : String)

namespace FirstSwitch

/-- The target of the switch resolves. -/
def Resolves (config : Kubeconfig) : FirstSwitch → Prop
  | activate source => ∃ target, config.resolve source = .ok target
  | merge source name => ∃ target, source.resolve name = .ok target

/-- Takes the switch. -/
def perform (config : Kubeconfig) (preferred : String) : FirstSwitch → Except Failure Outcome
  | activate source => Switch.activate config source preferred
  | merge source name => Switch.merge config source name preferred

end FirstSwitch

variable {preferred : String} {config : Kubeconfig} {outcome : Outcome} {here there : Meaning}

theorem currentExists_of_meaning? (h : config.meaning? config.current = some here) :
    CurrentExists config :=
  Or.inr (contains_of_meaning? h)

/-- Making a context current leaves the name of the target that was current before. -/
theorem activate_poised (hpreferred : preferred ≠ "") {source : String}
    (hhere : config.meaning? config.current = some here)
    (hthere : config.meaning? source = some there) :
    ∃ outcome, activate config source preferred = .ok outcome ∧ Poised there here outcome := by
  obtain ⟨outcome, houtcome⟩ := activate_succeeds hthere (currentExists_of_meaning? hhere)
  obtain ⟨hrenames, hcurrent, hlast⟩ := activate_ok hpreferred houtcome
  refine ⟨outcome, houtcome, ?_, ?_⟩
  · rw [hcurrent, hrenames.meaning?, hthere]
  · rw [hlast, hrenames.meaning?, hhere]

theorem merge_poised (hpreferred : preferred ≠ "") {source : Kubeconfig} {name : String}
    {target : Target} (hhere : config.meaning? config.current = some here)
    (htarget : source.resolve name = .ok target) :
    ∃ outcome, merge config source name preferred = .ok outcome ∧
      Poised target.meaning here outcome := by
  obtain ⟨outcome, number, houtcome, -, hadds, hcurrent, hlast⟩ :=
    merge_ok hpreferred (currentExists_of_meaning? hhere) htarget
  refine ⟨outcome, houtcome, ?_, ?_⟩
  · rw [hcurrent, hadds.added]
  · rw [hlast]
    exact hadds.kept _ _ hhere

theorem FirstSwitch.perform_poised (hpreferred : preferred ≠ "") {first : FirstSwitch}
    (hhere : config.meaning? config.current = some here) (hfirst : first.Resolves config) :
    ∃ outcome there, first.perform config preferred = .ok outcome ∧ Poised there here outcome := by
  cases first with
  | activate source =>
    obtain ⟨target, htarget⟩ := hfirst
    obtain ⟨outcome, houtcome, hpoised⟩ :=
      activate_poised hpreferred hhere (meaning?_of_resolve htarget)
    exact ⟨outcome, _, houtcome, hpoised⟩
  | merge source name =>
    obtain ⟨target, htarget⟩ := hfirst
    obtain ⟨outcome, houtcome, hpoised⟩ := merge_poised hpreferred hhere htarget
    exact ⟨outcome, _, houtcome, hpoised⟩

theorem toggle_poised (hpreferred : preferred ≠ "") (h : Poised here there outcome) :
    ∃ next, toggle preferred outcome = .ok next ∧ Poised there here next :=
  activate_poised hpreferred h.here h.there

/-- Steps back keep two targets in play and exchange their parts. -/
theorem toggles_poised (hpreferred : preferred ≠ "") (h : Poised here there outcome) (count : Nat) :
    ∃ next, toggles preferred count outcome = .ok next ∧
      (Even count → Poised here there next) ∧ (¬ Even count → Poised there here next) := by
  induction count with
  | zero => exact ⟨outcome, rfl, fun _ ↦ h, fun hodd ↦ absurd Even.zero hodd⟩
  | succ count ih =>
    obtain ⟨middle, hmiddle, heven, hodd⟩ := ih
    rw [toggles, hmiddle, Nat.even_add_one, not_not]
    by_cases hparity : Even count
    · obtain ⟨next, hnext, hpoised⟩ := toggle_poised hpreferred (heven hparity)
      exact ⟨next, hnext, fun hnot ↦ absurd hparity hnot, fun _ ↦ hpoised⟩
    · obtain ⟨next, hnext, hpoised⟩ := toggle_poised hpreferred (hodd hparity)
      exact ⟨next, hnext, fun _ ↦ hpoised, fun hnot ↦ absurd hnot hparity⟩

/-- After a first switch every number of steps back succeeds. The current context is the target of
before the switch after an odd number of them, and that of the switch after an even number. -/
theorem toggles_alternate (config : Kubeconfig) (preferred : String) (first : FirstSwitch)
    (hpreferred : preferred ≠ "")
    (hcurrent : ∃ target, config.resolve config.current = .ok target)
    (hfirst : first.Resolves config) :
    ∃ start, first.perform config preferred = .ok start ∧
      ∀ count, ∃ outcome, toggles preferred count start = .ok outcome ∧
        (Odd count →
          sameTarget outcome.config outcome.config.current config config.current = true) ∧
        (Even count → sameTarget outcome.config outcome.config.current
          start.config start.config.current = true) := by
  obtain ⟨target, htarget⟩ := hcurrent
  have hhere := meaning?_of_resolve htarget
  obtain ⟨start, there, hstart, hpoised⟩ := FirstSwitch.perform_poised hpreferred hhere hfirst
  refine ⟨start, hstart, fun count ↦ ?_⟩
  obtain ⟨outcome, houtcome, heven, hodd⟩ := toggles_poised hpreferred hpoised count
  refine ⟨outcome, houtcome, fun h ↦ ?_, fun h ↦ ?_⟩
  · exact sameTarget_of_meaning? (hodd (Nat.not_even_iff_odd.2 h)).here hhere
  · exact sameTarget_of_meaning? (heven h).here hpoised.here

/-- From a context that has the name of neither target, to the previous one and three steps on. -/
theorem toggles_alternate_crossed :
    "up" ≠ "" ∧ (∃ target, crossed.resolve crossed.current = .ok target) ∧
      (FirstSwitch.activate "up-previous").Resolves crossed ∧
      ∃ start outcome, activate crossed "up-previous" "up" = .ok start ∧
        toggles "up" 3 start = .ok outcome ∧
        sameTarget outcome.config outcome.config.current crossed "third" = true := by
  have hpreferred : "up" ≠ "" := by decide
  have hcurrent : ∃ target, crossed.resolve crossed.current = .ok target := ⟨_, rfl⟩
  have hfirst : (FirstSwitch.activate "up-previous").Resolves crossed := ⟨_, rfl⟩
  obtain ⟨start, hstart, hsteps⟩ :=
    toggles_alternate crossed "up" (.activate "up-previous") hpreferred hcurrent hfirst
  obtain ⟨outcome, houtcome, hodd, -⟩ := hsteps 3
  exact ⟨hpreferred, hcurrent, hfirst, start, outcome, hstart, houtcome, hodd (by decide)⟩

end Wayfinder.Switch
