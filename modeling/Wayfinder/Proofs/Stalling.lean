import Wayfinder.Proofs.AllOrNothing
import Wayfinder.Proofs.Capturing

/-!
Merges into a kubeconfig of which the current context does not exist. A merge looks at the current
context after it made its own entries, so it misses the mistake when one of these got that very
name.
Main statement: a merge is refused for a current context that does not exist unless its name is
captured, and where it goes through the target is current under the canonical name unless the name
of the previous target was current without a context; then nothing is exchanged
(`merge_switches_iff_not_stalls`, with `merge_stalls` for the two ways to be missed).
-/

set_option autoImplicit false
set_option relaxedAutoImplicit false

namespace Wayfinder

namespace NameMap

variable {α : Type} {m m' : NameMap α} {name reference : String} {added : Prop}

theorem aside_of_ne (h : reference ≠ name) : (m.aside name).2 reference = reference := by
  rw [aside]
  cases m.moveAside? name with
  | none => rfl
  | some moved => exact Switch.rename_of_ne h

theorem get?_eq_none_iff : m.get? name = none ↔ name ∉ m.names := by
  rw [mem_names_iff, ← Option.isSome_iff_exists, Option.not_isSome_iff_eq_none]

/-- What is captured depends on the names alone. -/
theorem captured_congr (h : m.names = m'.names) :
    m.Captured name added reference ↔ m'.Captured name added reference := by
  have herase : (m.erase name).names = (m'.erase name).names := by
    have hfilter : ∀ n : NameMap α, (n.erase name).names = n.names.filter (· != name) := fun n ↦ by
      rw [names, names, List.filter_map]
      rfl
    rw [hfilter, hfilter, h]
  rw [Captured, Captured, get?_eq_none_iff, get?_eq_none_iff, contains_iff_mem_names,
    contains_iff_mem_names, freeFor, freeFor, herase, h]

/-- After an entry made way for another one, a reference leads to an entry exactly when it did
before or is captured. -/
theorem contains_insert_aside_iff (value : α) :
    ((m.aside name).1.insert name value).contains ((m.aside name).2 reference) = true ↔
      m.contains reference = true ∨ m.Captured name True reference := by
  cases hget : m.get? reference with
  | some old =>
    have hfree : reference ≠ m.freeFor name := by
      rintro rfl
      rw [get?_freeFor] at hget
      cases hget
    refine iff_of_true ?_ (Or.inl (contains_iff.2 ⟨old, hget⟩))
    rw [contains, get?_insert, get?_aside, if_neg hfree, hget]
    split
    · rfl
    · rfl
  | none =>
    have hcontains : ¬ m.contains reference = true := by simp [contains, hget]
    rw [or_iff_right hcontains, ← not_iff_not, ← get?_insert_aside_iff value, contains,
      Option.not_isSome_iff_eq_none]
    constructor
    · intro hnone
      refine ⟨fun _ ↦ hnone, fun hname ↦ ?_⟩
      rw [hname, get?_insert, if_pos rfl] at hnone
      cases hnone
    · exact fun hkept ↦ hkept.1 hget

end NameMap

namespace Switch

open Kubeconfig Files

variable {config dest source : Kubeconfig} {name preferred : String} {target : Target}

/-- The target is current under the canonical name. -/
structure Switched (preferred : String) (target : Target) (config : Kubeconfig) : Prop where
  current : config.current = preferred
  meaning : config.meaning? preferred = some target.meaning

/-- The name of the previous target is current, and no context has it. -/
def Stalls (preferred : String) (dest : Kubeconfig) : Prop :=
  dest.current = previousName preferred ∧
    dest.contexts.contains (previousName preferred) = false

instance (preferred : String) (dest : Kubeconfig) : Decidable (Stalls preferred dest) :=
  inferInstanceAs (Decidable (_ ∧ _))

/-! ### Entries that are missing -/

/-- A name that does not resolve fails for an entry that does not exist. -/
theorem exists_notFound_of_resolve {failure : Failure} (h : config.resolve name = .error failure) :
    ∃ kind missing, failure = .notFound kind missing := by
  unfold resolve at h
  cases hcontext : config.contexts.get? name with
  | none =>
    simp only [hcontext, Except.error.injEq] at h
    exact ⟨_, _, h.symm⟩
  | some context =>
    cases hcluster : config.clusters.get? context.cluster with
    | none =>
      simp only [hcontext, hcluster, Except.error.injEq] at h
      exact ⟨_, _, h.symm⟩
    | some cluster =>
      simp only [hcontext, hcluster, userOf] at h
      by_cases hempty : context.user.isEmpty = true
      · simp [hempty] at h
      · cases huser : config.users.get? context.user with
        | none =>
          simp only [hempty, huser, Bool.false_eq_true, if_false, Except.error.injEq] at h
          exact ⟨_, _, h.symm⟩
        | some user => simp [hempty, huser] at h

theorem activate_of_dangling {source : String} (hsource : config.contexts.contains source = true)
    (hcurrent : ¬ CurrentExists config) :
    activate config source preferred = .error (.notFound .context config.current) := by
  obtain ⟨hne, habsent⟩ := not_currentExists_iff.1 hcurrent
  have hempty : config.current.isEmpty = false := by simpa using hne
  simp [activate, hsource, hempty, habsent]

/-! ### What is current once a merge made its entries -/

theorem clearContext_aside (name : String) (config : Kubeconfig) :
    (clearContext name config).contexts = (config.contexts.aside name).1 ∧
      (clearContext name config).current = (config.contexts.aside name).2 config.current := by
  unfold clearContext NameMap.aside
  cases config.contexts.moveAside? name with
  | none => exact ⟨rfl, rfl⟩
  | some moved => exact ⟨rfl, rfl⟩

/-- The contexts of what a merge prepares, and the name that is current there, follow from contexts
of the same names. -/
theorem prepare_contexts (name : String) (target : Target) (config : Kubeconfig) :
    ∃ (contexts : NameMap Context) (new : Context), contexts.names = config.contexts.names ∧
      (prepare name target config).contexts = (contexts.aside name).1.insert name new ∧
      (prepare name target config).current = (contexts.aside name).2 config.current := by
  obtain ⟨-, hnames, hcurrent⟩ := clearCluster_rest name config
  obtain ⟨-, hnames', hcurrent'⟩ := clearUser_rest name (clearCluster name config)
  obtain ⟨hcontexts, hmoved⟩ := clearContext_aside name (clearUser name (clearCluster name config))
  rw [hcurrent', hcurrent] at hmoved
  refine ⟨_, { target.context with
    cluster := name
    user := if target.user.isSome then name else "" }, hnames'.trans hnames, ?_, hmoved⟩
  rw [prepare, addTarget, hcontexts]

theorem aside_eq_empty_iff {contexts : NameMap Context} (hname : name ≠ "") (reference : String) :
    (contexts.aside name).2 reference = "" ↔ reference = "" := by
  rw [NameMap.aside]
  cases hmoved : contexts.moveAside? name with
  | none => rfl
  | some moved =>
    obtain ⟨number, -, hfree, -⟩ := NameMap.moveAside?_spec hmoved
    refine rename_eq_empty_iff hname ?_ reference
    rw [hfree]
    exact fun hempty ↦ hname (String.append_eq_empty_iff.1 hempty).1

/-- A current context that does not exist comes to exist exactly when its name is captured. -/
theorem currentExists_prepare_iff (hname : name ≠ "") :
    CurrentExists (prepare name target config) ↔
      CurrentExists config ∨ config.contexts.Captured name True config.current := by
  obtain ⟨contexts, new, hnames, hcontexts, hcurrent⟩ := prepare_contexts name target config
  have hexists : contexts.contains config.current = config.contexts.contains config.current := by
    rw [Bool.eq_iff_iff, NameMap.contains_iff_mem_names, NameMap.contains_iff_mem_names, hnames]
  rw [CurrentExists, CurrentExists, hcontexts, hcurrent, aside_eq_empty_iff hname,
    NameMap.contains_insert_aside_iff, hexists, NameMap.captured_congr hnames, or_assoc]

/-! ### What a merge reports -/

/-- The merge of a target that resolves goes through when the current context exists or its name is
captured. The target is canonical then, unless the merge stalls. -/
theorem merge_switched (hpreferred : preferred ≠ "") (htarget : source.resolve name = .ok target)
    (hcurrent : CurrentExists dest ∨
      dest.contexts.Captured (previousName preferred) True dest.current) :
    ∃ outcome, merge dest source name preferred = .ok outcome ∧
      (Switched preferred target outcome.config ↔ ¬ Stalls preferred dest) := by
  have hprevious := previousName_ne_empty preferred
  obtain ⟨number, -, -, -, -, hstalls⟩ := prepare_spec (previousName preferred) target dest
  have hmeaning : (prepare (previousName preferred) target dest).meaning? (previousName preferred) =
      some target.meaning := meaning?_addTarget_self hprevious _ target
  have hexists : CurrentExists (prepare (previousName preferred) target dest) :=
    (currentExists_prepare_iff hprevious).2 hcurrent
  obtain ⟨outcome, houtcome⟩ : ∃ outcome,
      activate (prepare (previousName preferred) target dest) (previousName preferred) preferred =
        .ok outcome := activate_succeeds hmeaning hexists
  obtain ⟨hrenames, hnow, -⟩ := activate_ok hpreferred houtcome
  refine ⟨outcome, (merge_eq_activate htarget).trans houtcome, ?_⟩
  by_cases hstalled : Stalls preferred dest
  · -- nothing was exchanged, so the target stands under the name of the previous one
    rw [turned_of_stays (Or.inr (hstalls.2 hstalled))] at hnow
    refine iff_of_false (fun hswitched ↦ ?_) (not_not_intro hstalled)
    exact previousName_ne preferred (hnow.symm.trans hswitched.current)
  · have hexchanged : ¬ (previousName preferred ≠ previousName preferred ∨
        (prepare (previousName preferred) target dest).current = previousName preferred) := by
      rw [not_or, not_not]
      exact ⟨rfl, fun heq ↦ hstalled (hstalls.1 heq)⟩
    rw [turned_of_exchanged hexchanged, swapNames_right] at hnow
    have hfound := hrenames.meaning? (previousName preferred)
    rw [turned_of_exchanged hexchanged, swapNames_right, hmeaning] at hfound
    exact iff_of_true ⟨hnow, hfound⟩ hstalled

/-- Any other current context that does not exist is what the merge is refused for. -/
theorem merge_of_dangling (htarget : source.resolve name = .ok target)
    (hcurrent : ¬ (CurrentExists dest ∨
      dest.contexts.Captured (previousName preferred) True dest.current)) :
    merge dest source name preferred = .error (.notFound .context dest.current) := by
  have hprevious := previousName_ne_empty preferred
  obtain ⟨contexts, new, -, hcontexts, hnow⟩ :=
    prepare_contexts (previousName preferred) target dest
  have hother : dest.current ≠ previousName preferred := by
    intro heq
    obtain ⟨hdangling, hcaptured⟩ := not_or.1 hcurrent
    have habsent := (not_currentExists_iff.1 hdangling).2
    rw [NameMap.contains, Option.isSome_eq_false_iff, Option.isNone_iff_eq_none] at habsent
    exact hcaptured ⟨habsent, Or.inl ⟨heq, trivial⟩⟩
  rw [NameMap.aside_of_ne hother] at hnow
  rw [← hnow, merge_eq_activate htarget]
  refine activate_of_dangling ?_ fun hexists ↦
    hcurrent ((currentExists_prepare_iff hprevious).1 hexists)
  rw [hcontexts, NameMap.contains, NameMap.get?_insert, if_pos rfl, Option.isSome_some]

/-- Whatever the destination, a merge that goes through has switched unless it stalled. -/
theorem switched_iff_of_merge {outcome : Outcome} (hpreferred : preferred ≠ "")
    (hmerge : merge dest source name preferred = .ok outcome) :
    ∃ target, source.resolve name = .ok target ∧
      (Switched preferred target outcome.config ↔ ¬ Stalls preferred dest) := by
  obtain ⟨target, htarget, -⟩ := bind_eq_ok hmerge
  refine ⟨target, htarget, ?_⟩
  by_cases hcurrent : CurrentExists dest ∨
      dest.contexts.Captured (previousName preferred) True dest.current
  · obtain ⟨outcome', houtcome', hswitched⟩ := merge_switched hpreferred htarget hcurrent
    obtain rfl : outcome' = outcome := Except.ok.inj (houtcome'.symm.trans hmerge)
    exact hswitched
  · rw [merge_of_dangling htarget hcurrent] at hmerge
    cases hmerge

/-- However a write ends, it leaves the kubeconfig or saves what the merge came to. -/
theorem Committer.write_untouched_or_saved {σ : Type} {c : Committer (StateM σ)} {s : Desk × σ}
    (hspares : c.SparesKubeconfig) (hload : c.store.load s.1.disk = .ok dest)
    (source : Kubeconfig) :
    ∃ answer next, AtDesk.result (c.write source) s = (answer, next) ∧
      (c.store.Untouched s.1.disk next.1.disk ∨
        ∃ outcome, answer = .ok () ∧ merge dest source source.current c.preferred = .ok outcome ∧
          (outcome.config.ReadsBack → c.store.load next.1.disk = .ok outcome.config)) := by
  rcases hresult : AtDesk.result (c.write source) s with ⟨failure | _, next⟩
  · exact ⟨_, next, rfl, Or.inl (untouched_of_write_error hresult)⟩
  · refine ⟨_, next, rfl, ?_⟩
    rcases commit_of_write hload hresult with
      ⟨-, rfl⟩ | ⟨outcome, verified, hmerge, -, hcommit⟩
    · exact Or.inl (.refl _ _)
    · exact Or.inr ⟨outcome, rfl, hmerge, load_of_commit hspares hcommit⟩

/-- A merge fails for what is missing in its source. Otherwise it is refused for a current context
that does not exist, unless the name of that is captured; and where it goes through, the target is
current under the canonical name unless the merge stalls. So a write leaves the kubeconfig, or saves
one in which its target is canonical, unless the kubeconfig that it found makes it stall. -/
theorem merge_switches_iff_not_stalls {σ : Type} (dest source : Kubeconfig) (preferred : String)
    (hpreferred : preferred ≠ "") :
    (∀ name failure, source.resolve name = .error failure →
      (∃ kind missing, failure = .notFound kind missing) ∧
        merge dest source name preferred = .error failure) ∧
    (∀ name target, source.resolve name = .ok target →
      (¬ (CurrentExists dest ∨
          dest.contexts.Captured (previousName preferred) True dest.current) →
        merge dest source name preferred = .error (.notFound .context dest.current)) ∧
      (CurrentExists dest ∨ dest.contexts.Captured (previousName preferred) True dest.current →
        ∃ outcome, merge dest source name preferred = .ok outcome ∧
          (Switched preferred target outcome.config ↔ ¬ Stalls preferred dest))) ∧
    ∀ (c : Committer (StateM σ)) (s : Desk × σ),
      c.preferred = preferred → c.SparesKubeconfig → c.store.load s.1.disk = .ok dest →
      ∃ answer next, AtDesk.result (c.write source) s = (answer, next) ∧
        (c.store.Untouched s.1.disk next.1.disk ∨
          ∃ outcome target, answer = .ok () ∧ source.resolve source.current = .ok target ∧
            merge dest source source.current preferred = .ok outcome ∧
            (outcome.config.ReadsBack → c.store.load next.1.disk = .ok outcome.config) ∧
            (Switched preferred target outcome.config ↔ ¬ Stalls preferred dest)) := by
  refine ⟨fun name failure hfailure ↦ ?_, fun name target htarget ↦ ?_, fun c s hc ↦ ?_⟩
  · refine ⟨exists_notFound_of_resolve hfailure, ?_⟩
    rw [merge, hfailure]
    rfl
  · exact ⟨merge_of_dangling htarget, merge_switched hpreferred htarget⟩
  · subst hc
    intro hspares hload
    obtain ⟨answer, next, hresult, hends⟩ :=
      Committer.write_untouched_or_saved hspares hload source
    refine ⟨answer, next, hresult, hends.imp_right ?_⟩
    rintro ⟨outcome, hanswer, hmerge, hloads⟩
    obtain ⟨target, htarget, hswitched⟩ := switched_iff_of_merge hpreferred hmerge
    exact ⟨outcome, target, hanswer, htarget, hmerge, hloads, hswitched⟩

/-- A kubeconfig of which the current context does not exist, and has the name that the context of
the previous target gets when it makes way. -/
def revived : Kubeconfig where
  clusters := NameMap.ofList [("a", { server := "https://a" })]
  contexts := NameMap.ofList [("p-previous", { cluster := "a" })]
  current := "p-previous1"

/-- A kubeconfig of which the current context does not exist, and has the name of the previous
target. -/
def stalled : Kubeconfig where
  current := "p-previous"

theorem captured_revived : revived.contexts.Captured (previousName "p") True revived.current :=
  ⟨rfl, Or.inr ⟨by decide, by decide⟩⟩

/-- A current context that comes to exist by the merge, and a write where there is no kubeconfig. -/
theorem merge_switches_iff_not_stalls_revived :
    let s : Desk × Unit := ({ disk := {} }, ())
    "p" ≠ "" ∧ (∃ target outcome, newcomer.resolve "n" = .ok target ∧
        merge revived newcomer "n" "p" = .ok outcome ∧ Switched "p" target outcome.config) ∧
      Committer.filed.store.load s.1.disk = .ok {} ∧
      ∃ answer next, AtDesk.result (Committer.filed.write newcomer) s = (answer, next) ∧
        (Committer.filed.store.Untouched s.1.disk next.1.disk ∨
          ∃ (outcome : Outcome) (target : Target), answer = .ok () ∧
            newcomer.resolve "n" = .ok target ∧
            (outcome.config.ReadsBack →
              Committer.filed.store.load next.1.disk = .ok outcome.config) ∧
            Switched "p" target outcome.config) := by
  intro s
  have hpreferred : "p" ≠ "" := by decide
  have hload : Committer.filed.store.load s.1.disk = .ok {} := rfl
  obtain ⟨-, hmerge, -⟩ :=
    merge_switches_iff_not_stalls (σ := Unit) revived newcomer "p"
      hpreferred
  obtain ⟨-, -, hwrite⟩ := merge_switches_iff_not_stalls {} newcomer "p" hpreferred
  obtain ⟨target, htarget⟩ : ∃ target, newcomer.resolve "n" = .ok target := ⟨_, rfl⟩
  obtain ⟨outcome, houtcome, hswitched⟩ := (hmerge "n" target htarget).2 (Or.inr captured_revived)
  obtain ⟨answer, next, hresult, hends⟩ :=
    hwrite Committer.filed s rfl Committer.spares_filed hload
  refine ⟨hpreferred, ⟨target, outcome, htarget, houtcome, hswitched.2 (by decide)⟩, hload, answer,
    next, hresult, ?_⟩
  refine hends.imp_right ?_
  rintro ⟨outcome, target, hanswer, htarget, -, hloads, hswitched⟩
  exact ⟨outcome, target, hanswer, htarget, hloads, hswitched.2 (by decide)⟩

/-- The mistake of a current context that does not exist can be missed. Then the merge may report
success without a switch; or it may switch, and what was current has come to exist. -/
theorem merge_stalls :
    (¬ CurrentExists stalled ∧ ∃ outcome, merge stalled newcomer "n" "p" = .ok outcome ∧
      outcome.config.current = "p-previous" ∧ outcome.config.contexts.get? "p" = none) ∧
    ¬ CurrentExists revived ∧ ∃ outcome, merge revived newcomer "n" "p" = .ok outcome ∧
      outcome.last = "p-previous1" := by
  refine ⟨⟨?_, _, rfl, rfl, rfl⟩, ?_, _, rfl, rfl⟩
  · rw [not_currentExists_iff]
    decide
  · rw [not_currentExists_iff]
    decide

end Switch

end Wayfinder
