import Wayfinder.Proofs.Merging

/-!
What a single switch keeps. Main statements: from a kubeconfig in which every context finds its
entries, making a context current and taking in a target lead to another such kubeconfig, and the
name that leads back is that of a context that is not current (`activate_settles`, `merge_settles`).
-/

set_option autoImplicit false
set_option relaxedAutoImplicit false

namespace Wayfinder

namespace Kubeconfig

variable {config : Kubeconfig}

/-- Every context finds the entries it refers to, and the current context exists. -/
structure Sound (config : Kubeconfig) : Prop where
  resolves : ∀ name, config.contexts.contains name = true →
    ∃ target, config.resolve name = .ok target
  current : Switch.CurrentExists config

/-- The name that leads back, if there is one, is that of a context that is not current. -/
def LeadsElsewhere (config : Kubeconfig) (recorded : Option String) : Prop :=
  ∀ name, recorded = some name → config.contexts.contains name = true ∧ name ≠ config.current

end Kubeconfig

namespace Switch

open Kubeconfig

/-- The name that is kept; the empty one counts as none. -/
def recorded (name : String) : Option String := if name = "" then none else some name

variable {config source : Kubeconfig} {name preferred : String} {target : Target}

theorem turned_empty (hpreferred : preferred ≠ "") : turned config name preferred "" = "" := by
  unfold turned
  split
  · exact (swapNames_eq_empty_iff hpreferred (previousName_ne_empty preferred) "").2 rfl
  · rfl

theorem turned_injective (config : Kubeconfig) (name preferred : String) :
    Function.Injective (turned config name preferred) := by
  unfold turned
  split
  · exact Function.Involutive.injective (swapNames_involutive _ _)
  · exact Function.injective_id

theorem displaced_ne_preferred (preferred : String) (number : Nat) (other : String) :
    displaced preferred number other ≠ preferred := by
  unfold displaced
  split
  · exact previousName_ne preferred
  · next hother =>
    split
    · exact previousName_append_ne preferred _
    · exact hother

theorem displaced_empty (hpreferred : preferred ≠ "") (number : Nat) :
    displaced preferred number "" = "" := by
  rw [displaced, if_neg hpreferred.symm, if_neg (previousName_ne_empty preferred).symm]

/-- What is current under a new name is recorded as that of another context. -/
theorem leadsElsewhere_of_current {f : String → String} {before after : Kubeconfig}
    (hcurrent : CurrentExists before) (hempty : f "" = "")
    (hnames : ∀ other ∈ before.contexts.names, f other ∈ after.contexts.names)
    (hother : f before.current ≠ after.current) :
    after.LeadsElsewhere (recorded (f before.current)) := by
  intro name hname
  unfold recorded at hname
  split at hname
  · cases hname
  · next hnonempty =>
    obtain rfl := Option.some.inj hname
    refine ⟨?_, hother⟩
    have hcontains : before.contexts.contains before.current = true := by
      rcases hcurrent with hnone | hexists
      · rw [hnone, hempty] at hnonempty
        exact absurd rfl hnonempty
      · exact hexists
    rw [NameMap.contains_iff_mem_names] at hcontains ⊢
    exact hnames _ hcontains

/-- A context that keeps its meaning under a new name still finds its entries. -/
theorem resolves_of_moved {f : String → String} {before after : Kubeconfig} {other : String}
    (hbefore : before.Sound)
    (hkept : ∀ name meaning, before.meaning? name = some meaning →
      after.meaning? (f name) = some meaning)
    (hother : other ∈ before.contexts.names.map f) : ∃ target, after.resolve other = .ok target := by
  obtain ⟨name, hname, rfl⟩ := List.mem_map.1 hother
  obtain ⟨meaning, hmeaning⟩ := exists_meaning?_iff.2
    (hbefore.resolves name (NameMap.contains_iff_mem_names.2 hname))
  exact exists_meaning?_iff.1 ⟨meaning, hkept name meaning hmeaning⟩

theorem activate_settles (hpreferred : preferred ≠ "") (hsound : config.Sound)
    (hname : config.contexts.contains name = true) (hother : name ≠ config.current) :
    ∃ outcome, activate config name preferred = .ok outcome ∧ outcome.config.Sound ∧
      outcome.config.LeadsElsewhere (recorded outcome.last) := by
  obtain ⟨meaning, hmeaning⟩ := exists_meaning?_iff.2 (hsound.resolves name hname)
  obtain ⟨outcome, houtcome⟩ := activate_succeeds hmeaning hsound.current
  obtain ⟨hrenames, hcurrent, hlast⟩ := activate_ok hpreferred houtcome
  have hnames : ∀ other ∈ config.contexts.names,
      turned config name preferred other ∈ outcome.config.contexts.names :=
    fun other hmem ↦ hrenames.names.mem_iff.2 (List.mem_map_of_mem hmem)
  refine ⟨outcome, houtcome, ⟨fun other hcontains ↦ ?_, Or.inr ?_⟩, ?_⟩
  · rw [NameMap.contains_iff_mem_names, hrenames.names.mem_iff] at hcontains
    exact resolves_of_moved hsound (fun before _ h ↦ (hrenames.meaning? before).trans h) hcontains
  · rw [hcurrent, NameMap.contains_iff_mem_names]
    exact hnames name (NameMap.contains_iff_mem_names.1 hname)
  · rw [hlast]
    refine leadsElsewhere_of_current hsound.current (turned_empty hpreferred) hnames ?_
    rw [hcurrent]
    exact fun heq ↦ hother (turned_injective config name preferred heq).symm

theorem merge_settles (hpreferred : preferred ≠ "") (hsound : config.Sound)
    (htarget : source.resolve name = .ok target) :
    ∃ outcome, merge config source name preferred = .ok outcome ∧ outcome.config.Sound ∧
      outcome.config.LeadsElsewhere (recorded outcome.last) := by
  obtain ⟨outcome, number, houtcome, -, hadds, hcurrent, hlast⟩ :=
    merge_ok hpreferred hsound.current htarget
  refine ⟨outcome, houtcome, ⟨fun other hcontains ↦ ?_, Or.inr ?_⟩, ?_⟩
  · rw [NameMap.contains_iff_mem_names, hadds.names.mem_iff, List.mem_cons] at hcontains
    rcases hcontains with rfl | hmoved
    · exact exists_meaning?_iff.1 ⟨_, hadds.added⟩
    · exact resolves_of_moved hsound hadds.kept hmoved
  · rw [hcurrent]
    exact contains_of_meaning? hadds.added
  · rw [hlast]
    refine leadsElsewhere_of_current hsound.current (displaced_empty hpreferred number)
      (fun other hmem ↦ ?_) ?_
    · exact hadds.names.mem_iff.2 (List.mem_cons_of_mem _ (List.mem_map_of_mem hmem))
    · rw [hcurrent]
      exact displaced_ne_preferred preferred number config.current

end Switch

end Wayfinder
