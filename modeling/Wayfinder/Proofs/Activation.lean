import Wayfinder.Proofs.Meaning
import Wayfinder.Proofs.Renaming

/-!
Making a context current changes names and keeps meanings. Main statement: when it succeeds, every
name leads to what it led to before under the exchanged names, references that lead nowhere
included, and it is refused in exactly three cases (`activate_keeps_meanings`). The three steps of
an exchange are proved apart: contexts change their names, and clusters and users change theirs
together with all references to them.
-/

set_option autoImplicit false
set_option relaxedAutoImplicit false

namespace Wayfinder

namespace Kubeconfig

/-- The second kubeconfig is the first with contexts under the names that `f` gives them, and with
clusters and users under any names that keep what every context leads to. -/
structure Renames (f : String → String) (before after : Kubeconfig) : Prop where
  view : ∀ name, after.view? (f name) = before.view? name
  names : after.contexts.names.Perm (before.contexts.names.map f)
  clusters : after.clusters.values = before.clusters.values
  users : after.users.values = before.users.values
  bodies : after.bodies = before.bodies
  rest : SameRest before after

theorem Renames.refl (config : Kubeconfig) : Renames id config config where
  view _ := rfl
  names := by rw [List.map_id]
  clusters := rfl
  users := rfl
  bodies := rfl
  rest := SameRest.refl config

theorem Renames.trans {f g : String → String} {first middle last : Kubeconfig}
    (h : Renames f first middle) (h' : Renames g middle last) :
    Renames (fun name ↦ g (f name)) first last where
  view name := (h'.view (f name)).trans (h.view name)
  names := by
    have hnames := h'.names.trans (h.names.map g)
    rwa [List.map_map] at hnames
  clusters := h'.clusters.trans h.clusters
  users := h'.users.trans h.users
  bodies := h'.bodies.trans h.bodies
  rest := h.rest.trans h'.rest

theorem Renames.meaning? {f : String → String} {before after : Kubeconfig}
    (h : Renames f before after) (name : String) :
    after.meaning? (f name) = before.meaning? name := by
  rw [meaning?_eq_bind, meaning?_eq_bind, h.view]

end Kubeconfig

namespace Switch

open Kubeconfig

variable {config config' : Kubeconfig} {a b : String}

/-! ### References follow the entries they lead to -/

@[simp] theorem bodies_referAll (r : Reference) (f : String → String) (config : Kubeconfig) :
    (referAll r f config).bodies = config.bodies := by
  simp [Kubeconfig.bodies, referAll, Multiset.map_map]

theorem renames_referAll_cluster {f : String → String} {clusters : NameMap Cluster}
    (hget : ∀ name, clusters.get? (f name) = config.clusters.get? name)
    (hvalues : clusters.values = config.clusters.values) :
    Renames id config (referAll .cluster f { config with clusters }) where
  view name := by
    simp only [view?, referAll, NameMap.get?_map, Option.map_map, Function.comp_def,
      Context.body_refer]
    simp only [Context.refer, hget]
    rfl
  names := by rw [List.map_id, referAll, NameMap.names_map]
  clusters := hvalues
  users := rfl
  bodies := bodies_referAll _ _ _
  rest := ⟨rfl, rfl, rfl, rfl, rfl⟩

/-- The empty name is no reference to a user, so it has to stay what it is. -/
theorem renames_referAll_user {f : String → String} {users : NameMap User}
    (hempty : ∀ name, f name = "" ↔ name = "")
    (hget : ∀ name, users.get? (f name) = config.users.get? name)
    (hvalues : users.values = config.users.values) :
    Renames id config (referAll .user f { config with users }) where
  view name := by
    simp only [view?, referAll, NameMap.get?_map, Option.map_map, Function.comp_def,
      Context.body_refer]
    simp only [Context.refer, toOption_userOf, hempty, hget]
    rfl
  names := by rw [List.map_id, referAll, NameMap.names_map]
  clusters := rfl
  users := hvalues
  bodies := bodies_referAll _ _ _
  rest := ⟨rfl, rfl, rfl, rfl, rfl⟩

theorem swapNames_eq_empty_iff (ha : a ≠ "") (hb : b ≠ "") (name : String) :
    swapNames a b name = "" ↔ name = "" := by
  unfold swapNames
  split
  · next h => simp [h, ha, hb]
  · split
    · next h => simp [h, ha, hb]
    · rfl

/-! ### The three exchanges -/

theorem exchangeClusters_error_iff :
    (∃ failure, exchangeClusters a b config = .error failure) ↔
      config.clusters.get? b = none := by
  rw [← NameMap.exchange?_eq_none_iff (a := a)]
  unfold exchangeClusters
  cases config.clusters.exchange? a b <;> simp

theorem exchangeUsers_error_iff :
    (∃ failure, exchangeUsers a b config = .error failure) ↔ config.users.get? b = none := by
  rw [← NameMap.exchange?_eq_none_iff (a := a)]
  unfold exchangeUsers
  cases config.users.exchange? a b <;> simp

theorem exchangeClusters_ok (hab : a ≠ b) (h : exchangeClusters a b config = .ok config') :
    Renames id config config' ∧ config'.current = config.current ∧
      config'.users = config.users := by
  unfold exchangeClusters at h
  cases hx : config.clusters.exchange? a b with
  | none => simp [hx] at h
  | some clusters =>
    simp only [hx, Except.ok.injEq] at h
    subst h
    refine ⟨renames_referAll_cluster (NameMap.get?_exchange hab hx) ?_, rfl, rfl⟩
    exact (NameMap.relabels_exchange hab hx).values

theorem exchangeUsers_ok (hab : a ≠ b) (ha : a ≠ "") (hb : b ≠ "")
    (h : exchangeUsers a b config = .ok config') :
    Renames id config config' ∧ config'.current = config.current := by
  unfold exchangeUsers at h
  cases hx : config.users.exchange? a b with
  | none => simp [hx] at h
  | some users =>
    simp only [hx, Except.ok.injEq] at h
    subst h
    refine ⟨renames_referAll_user (swapNames_eq_empty_iff ha hb) (NameMap.get?_exchange hab hx) ?_,
      rfl⟩
    exact (NameMap.relabels_exchange hab hx).values

theorem renames_exchange_contexts {contexts : NameMap Context} (hab : a ≠ b)
    (h : config.contexts.exchange? a b = some contexts) (current : String) :
    Renames (swapNames a b) config { config with contexts, current } where
  view name := by
    simp only [view?, NameMap.get?_exchange hab h]
    rfl
  names := (NameMap.relabels_exchange hab h).names
  clusters := rfl
  users := rfl
  bodies := by
    simp only [Kubeconfig.bodies, (NameMap.relabels_exchange hab h).values]
  rest := ⟨rfl, rfl, rfl, rfl, rfl⟩

theorem bind_eq_ok {ε α β : Type} {x : Except ε α} {f : α → Except ε β} {r : β}
    (h : (x >>= f) = .ok r) : ∃ y, x = .ok y ∧ f y = .ok r := by
  cases x with
  | error failure => cases h
  | ok y => exact ⟨y, rfl, h⟩

/-- An exchange of targets, with its two conditions apart. -/
theorem exchangeTargets_eq {contexts : NameMap Context} {context : Context}
    (hx : config.contexts.exchange? a b = some contexts) (hc : contexts.get? a = some context) :
    exchangeTargets a b config =
      (if context.cluster = b then exchangeClusters a b { config with contexts, current := a }
        else .ok { config with contexts, current := a }) >>= fun middle ↦
      if context.user = b then exchangeUsers a b middle else .ok middle := by
  simp only [exchangeTargets, hx, hc]
  split <;> rfl

/-- The context that comes to stand under `a` is the one that stood under `b`. -/
theorem exists_exchange_contexts {context : Context} (hab : a ≠ b)
    (hb : config.contexts.get? b = some context) :
    ∃ contexts, config.contexts.exchange? a b = some contexts ∧
      contexts.get? a = some context := by
  cases hx : config.contexts.exchange? a b with
  | none =>
    rw [NameMap.exchange?_eq_none_iff, hb] at hx
    cases hx
  | some contexts =>
    refine ⟨contexts, rfl, ?_⟩
    rw [← swapNames_right a b, NameMap.get?_exchange hab hx, hb]

theorem exchangeTargets_ok {context : Context} (hab : a ≠ b) (ha : a ≠ "") (hb : b ≠ "")
    (hcontext : config.contexts.get? b = some context)
    (h : exchangeTargets a b config = .ok config') :
    Renames (swapNames a b) config config' ∧ config'.current = a := by
  obtain ⟨contexts, hx, hc⟩ := exists_exchange_contexts hab hcontext
  have hcontexts := renames_exchange_contexts hab hx a
  rw [exchangeTargets_eq hx hc] at h
  obtain ⟨middle, hmiddle, hlast⟩ := bind_eq_ok h
  have hclusters : Renames id { config with contexts, current := a } middle ∧
      middle.current = a := by
    split at hmiddle
    · obtain ⟨hrenames, hcurrent, -⟩ := exchangeClusters_ok hab hmiddle
      exact ⟨hrenames, hcurrent⟩
    · cases hmiddle
      exact ⟨Renames.refl _, rfl⟩
  have husers : Renames id middle config' ∧ config'.current = middle.current := by
    split at hlast
    · exact exchangeUsers_ok hab ha hb hlast
    · cases hlast
      exact ⟨Renames.refl _, rfl⟩
  exact ⟨(hcontexts.trans hclusters.1).trans husers.1, husers.2.trans hclusters.2⟩

/-- An exchange fails when the context that moves refers to an entry of its own name that does not
exist. -/
theorem exchangeTargets_error_iff {context : Context} (hab : a ≠ b)
    (hcontext : config.contexts.get? b = some context) :
    (∃ failure, exchangeTargets a b config = .error failure) ↔
      (context.cluster = b ∧ config.clusters.get? b = none) ∨
        (context.user = b ∧ config.users.get? b = none) := by
  obtain ⟨contexts, hx, hc⟩ := exists_exchange_contexts hab hcontext
  rw [exchangeTargets_eq hx hc]
  have husers : ∀ middle : Kubeconfig, middle.users = config.users →
      ((∃ failure, (if context.user = b then exchangeUsers a b middle else .ok middle) =
        .error failure) ↔ context.user = b ∧ config.users.get? b = none) := by
    intro middle hmiddle
    split
    · next huser => rw [exchangeUsers_error_iff, hmiddle, and_iff_right huser]
    · next huser => simp [huser]
  split
  · next hcluster =>
    have hclusters : (∃ failure, exchangeClusters a b { config with contexts, current := a } =
        .error failure) ↔ config.clusters.get? b = none := exchangeClusters_error_iff
    cases hmiddle : exchangeClusters a b { config with contexts, current := a } with
    | error failure =>
      have hnone := hclusters.1 ⟨failure, hmiddle⟩
      exact iff_of_true ⟨failure, rfl⟩ (Or.inl ⟨hcluster, hnone⟩)
    | ok middle =>
      have hsome : config.clusters.get? b ≠ none := by
        intro hnone
        obtain ⟨failure, hfailure⟩ := hclusters.2 hnone
        rw [hmiddle] at hfailure
        cases hfailure
      refine (husers middle (exchangeClusters_ok hab hmiddle).2.2).trans ?_
      simp [hsome]
  · next hcluster =>
    refine (husers { config with contexts, current := a } rfl).trans ?_
    simp [hcluster]

/-! ### Making a context current -/

/-- The names under which contexts are found after `source` is made current. Those of the current
and the previous target are exchanged when the previous target becomes current. -/
def turned (config : Kubeconfig) (source preferred : String) : String → String :=
  if source = previousName preferred ∧ config.current ≠ source then
    swapNames preferred (previousName preferred)
  else id

/-- The cases in which `source` can not be made current. -/
def Refused (config : Kubeconfig) (source preferred : String) : Prop :=
  config.contexts.contains source = false ∨
    (config.current ≠ "" ∧ config.contexts.contains config.current = false) ∨
    (source = previousName preferred ∧ config.current ≠ source ∧
      ∃ context, config.contexts.get? source = some context ∧
        ((context.cluster = source ∧ config.clusters.get? source = none) ∨
          (context.user = source ∧ config.users.get? source = none)))

variable {source preferred : String} {outcome : Outcome}

/-- The current context, if there is one, has to exist. -/
def CurrentExists (config : Kubeconfig) : Prop :=
  config.current = "" ∨ config.contexts.contains config.current = true

theorem not_currentExists_iff :
    ¬ CurrentExists config ↔
      config.current ≠ "" ∧ config.contexts.contains config.current = false := by
  rw [CurrentExists, not_or, Bool.not_eq_true]

/-- What making a context current comes to when both names are those of contexts. -/
theorem activate_of_exists (hsource : config.contexts.contains source = true)
    (hcurrent : CurrentExists config) :
    activate config source preferred =
      if source ≠ previousName preferred ∨ config.current = source then
        .ok { config := { config with current := source }, last := config.current }
      else (exchangeTargets preferred (previousName preferred) config).map fun config' ↦
        { config := config'
          last := if config.current = preferred then previousName preferred else config.current } := by
  have hguard : (!config.current.isEmpty && !config.contexts.contains config.current) = false := by
    rcases hcurrent with hempty | hexists
    · simp [hempty]
    · simp [hexists]
  simp only [activate, hsource, hguard, Bool.not_true, Bool.false_eq_true, if_false]
  by_cases hprevious : source = previousName preferred
  · by_cases hsame : config.current = source
    · simp only [hprevious, hsame, ne_eq, not_true_eq_false, if_false, if_true, or_true]
      rw [← hprevious, ← hsame]
    · simp only [hprevious, ne_eq, not_true_eq_false, if_false, false_or]
      rw [hprevious] at hsame
      rw [if_neg hsame, if_neg hsame]
  · simp [hprevious]

theorem activate_refused (h : ¬ (config.contexts.contains source = true ∧ CurrentExists config)) :
    ∃ failure, activate config source preferred = .error failure := by
  unfold activate
  by_cases hsource : config.contexts.contains source = true
  · have hcurrent := not_currentExists_iff.1 fun hexists ↦ h ⟨hsource, hexists⟩
    have hempty : config.current.isEmpty = false := by simpa using hcurrent.1
    exact ⟨.notFound .context config.current, by simp [hsource, hempty, hcurrent.2]⟩
  · exact ⟨.notFound .context source, by simp [hsource]⟩

theorem turned_of_stays (h : source ≠ previousName preferred ∨ config.current = source) :
    turned config source preferred = id := by
  refine if_neg ?_
  rintro ⟨hsource, hcurrent⟩
  exact h.elim (fun hne ↦ hne hsource) hcurrent

theorem turned_of_exchanged (h : ¬ (source ≠ previousName preferred ∨ config.current = source)) :
    turned config source preferred = swapNames preferred (previousName preferred) := by
  rw [not_or, not_not] at h
  exact if_pos h

theorem renames_current (config : Kubeconfig) (current : String) :
    Renames id config { config with current } where
  view _ := rfl
  names := by rw [List.map_id]
  clusters := rfl
  users := rfl
  bodies := rfl
  rest := ⟨rfl, rfl, rfl, rfl, rfl⟩

theorem exists_of_activate (h : activate config source preferred = .ok outcome) :
    config.contexts.contains source = true ∧ CurrentExists config := by
  by_contra hnot
  obtain ⟨failure, hfailure⟩ := activate_refused hnot
  rw [hfailure] at h
  cases h

/-- The current context and the name that leads back are those of before under their new names. -/
theorem activate_ok (hpreferred : preferred ≠ "")
    (h : activate config source preferred = .ok outcome) :
    Renames (turned config source preferred) config outcome.config ∧
      outcome.config.current = turned config source preferred source ∧
      outcome.last = turned config source preferred config.current := by
  obtain ⟨hsource, hcurrent⟩ := exists_of_activate h
  rw [activate_of_exists hsource hcurrent] at h
  split at h
  · next hstays =>
    cases h
    rw [turned_of_stays hstays]
    exact ⟨renames_current config source, rfl, rfl⟩
  · next hexchanged =>
    rw [turned_of_exchanged hexchanged]
    rw [not_or, not_not] at hexchanged
    obtain ⟨rfl, hother⟩ := hexchanged
    obtain ⟨context, hcontext⟩ := NameMap.contains_iff.1 hsource
    cases hx : exchangeTargets preferred (previousName preferred) config with
    | error failure =>
      rw [hx] at h
      cases h
    | ok config' =>
      rw [hx] at h
      cases h
      obtain ⟨hrenames, hnow⟩ := exchangeTargets_ok (previousName_ne preferred).symm hpreferred
        (previousName_ne_empty preferred) hcontext hx
      refine ⟨hrenames, ?_, ?_⟩
      · rw [swapNames_right]
        exact hnow
      · by_cases hold : config.current = preferred
        · simp [hold]
        · simp only [hold, if_false]
          exact (swapNames_of_ne hold hother).symm

theorem activate_error_iff :
    (∃ failure, activate config source preferred = .error failure) ↔
      Refused config source preferred := by
  by_cases hexists : config.contexts.contains source = true ∧ CurrentExists config
  · obtain ⟨hsource, hcurrent⟩ := hexists
    obtain ⟨context, hcontext⟩ := NameMap.contains_iff.1 hsource
    rw [activate_of_exists hsource hcurrent, Refused, ← not_currentExists_iff]
    simp only [hsource, hcurrent, not_true_eq_false, Bool.true_eq_false, false_or]
    split
    · next hstays =>
      simp only [reduceCtorEq, exists_false, false_iff]
      rintro ⟨hprevious, hother, -⟩
      exact hstays.elim (fun hne ↦ hne hprevious) hother
    · next hexchanged =>
      rw [not_or, not_not] at hexchanged
      obtain ⟨rfl, hother⟩ := hexchanged
      have hfails := exchangeTargets_error_iff (previousName_ne preferred).symm hcontext
      simp only [hcontext, Option.some.injEq, exists_eq_left', true_and, ne_eq, hother,
        not_false_eq_true]
      rw [← hfails]
      cases exchangeTargets preferred (previousName preferred) config <;> simp [Except.map]
  · refine iff_of_true (activate_refused hexists) ?_
    rw [Refused, ← not_currentExists_iff]
    by_cases hsource : config.contexts.contains source = true
    · exact Or.inr (Or.inl fun hcurrent ↦ hexists ⟨hsource, hcurrent⟩)
    · exact Or.inl (Bool.not_eq_true _ ▸ hsource)

/-- A context that resolves can be made current. -/
theorem activate_succeeds {meaning : Meaning} (hsource : config.meaning? source = some meaning)
    (hcurrent : CurrentExists config) :
    ∃ outcome, activate config source preferred = .ok outcome := by
  have hnot : ¬ Refused config source preferred := by
    rw [Refused, ← not_currentExists_iff]
    rintro (habsent | hdangling | ⟨rfl, -, context, hcontext, hmissing⟩)
    · rw [contains_of_meaning? hsource] at habsent
      cases habsent
    · exact hdangling hcurrent
    · obtain ⟨c, hc, hcluster, huser, -⟩ := meaning?_eq_some_iff.1 hsource
      obtain rfl : context = c := Option.some.inj (hcontext.symm.trans hc)
      rcases hmissing with ⟨hname, hnone⟩ | ⟨hname, hnone⟩
      · rw [hname, hnone] at hcluster
        cases hcluster
      · rw [hname, toOption_userOf, if_neg (previousName_ne_empty preferred), hnone] at huser
        cases huser
  cases h : activate config source preferred with
  | error failure => exact absurd (activate_error_iff.1 ⟨failure, h⟩) hnot
  | ok outcome => exact ⟨outcome, rfl⟩

/-- Making a context current is refused in exactly three cases. Otherwise every name, whether or
not it is that of a context that resolves, leads under its new name to what it led to before, and
nothing else is changed. -/
theorem activate_keeps_meanings (config : Kubeconfig) (source preferred : String)
    (hpreferred : preferred ≠ "") :
    ((∃ failure, activate config source preferred = .error failure) ↔
      Refused config source preferred) ∧
    ∀ outcome, activate config source preferred = .ok outcome →
      (∀ name, outcome.config.meaning? (turned config source preferred name) =
        config.meaning? name) ∧
      Renames (turned config source preferred) config outcome.config ∧
      outcome.config.current = turned config source preferred source := by
  refine ⟨activate_error_iff, fun outcome h ↦ ?_⟩
  obtain ⟨hrenames, hcurrent, -⟩ := activate_ok hpreferred h
  exact ⟨hrenames.meaning?, hrenames, hcurrent⟩

/-- Contexts that refer to the entries of each other's names, and one that refers to none. -/
def crossed : Kubeconfig where
  clusters := NameMap.ofList
    [("shared", { server := "https://a" }), ("up-previous", { server := "https://b" })]
  users := NameMap.ofList [("up", { token := some "t" }), ("up-previous", { token := some "u" })]
  contexts := NameMap.ofList
    [("dangling", { cluster := "up", user := "up-previous" }),
      ("third", { cluster := "up-previous", user := "up" }),
      ("up", { cluster := "shared", user := "up" }),
      ("up-previous", { cluster := "up-previous" })]
  current := "third"

theorem activate_keeps_meanings_crossed :
    "up" ≠ "" ∧ ∃ outcome, activate crossed "up-previous" "up" = .ok outcome ∧
      outcome.config.current = "up" ∧
      outcome.config.meaning? "up" = crossed.meaning? "up-previous" ∧
      outcome.config.meaning? "third" = crossed.meaning? "third" ∧
      outcome.config.meaning? "dangling" = none := by
  have hpreferred : "up" ≠ "" := by decide
  obtain ⟨-, hkept⟩ := activate_keeps_meanings crossed "up-previous" "up" hpreferred
  have hok : (activate crossed "up-previous" "up").isOk = true := by decide
  cases h : activate crossed "up-previous" "up" with
  | error failure =>
    rw [h] at hok
    cases hok
  | ok outcome =>
    obtain ⟨hmeaning, -, hcurrent⟩ := hkept outcome h
    have hdangling : crossed.meaning? "dangling" = none := by
      have hnone : (crossed.meaning? "dangling").isNone = true := by decide
      exact Option.isNone_iff_eq_none.1 hnone
    refine ⟨hpreferred, outcome, rfl, hcurrent, hmeaning "up-previous", hmeaning "third", ?_⟩
    exact (hmeaning "dangling").trans hdangling

end Switch

end Wayfinder
