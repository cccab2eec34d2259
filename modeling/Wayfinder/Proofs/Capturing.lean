import Wayfinder.Proofs.Merging

/-!
What a merge does to references that lead nowhere. An entry that makes way and an entry that is
added get names, and a reference that happened to have such a name leads to the entry from then on:
it is captured (`Captured`). Main statement: a context of the destination gains nothing by a merge
exactly when none of its references is captured (`merge_gains_nothing_iff`). That references can be
captured, and with what consequence, is `merge_captures_dangling`.
-/

set_option autoImplicit false
set_option relaxedAutoImplicit false

namespace Wayfinder

namespace NameMap

open Switch

variable {α : Type} {m : NameMap α} {name reference : String}

/-! ### Moving aside, with the references to what is moved -/

/-- The map in which nothing stands under a name any more, and what references have to become. -/
def aside (m : NameMap α) (name : String) : NameMap α × (String → String) :=
  match m.moveAside? name with
  | none => (m, id)
  | some (moved, free) => (moved, rename name free)

/-- The name for the entry that makes way. -/
def freeFor (m : NameMap α) (name : String) : String := freeName name (m.erase name).names

theorem aside_of_none (h : m.get? name = none) : m.aside name = (m, id) := by
  rw [aside, moveAside?_eq_none_iff.2 h]

theorem aside_of_some {value : α} (h : m.get? name = some value) :
    m.aside name = ((m.erase name).insert (m.freeFor name) value, rename name (m.freeFor name)) := by
  rw [aside, moveAside?, h]
  rfl

theorem freeFor_ne (m : NameMap α) (name : String) : m.freeFor name ≠ name := by
  obtain ⟨number, -, -, hfree⟩ := exists_leastFree name (m.erase name).names
  rw [freeFor, hfree]
  exact numbered_ne name number

theorem get?_freeFor (m : NameMap α) (name : String) : m.get? (m.freeFor name) = none := by
  obtain ⟨number, -, hleast, hfree⟩ := exists_leastFree name (m.erase name).names
  have hnot : m.freeFor name ∉ m.names := by
    rw [freeFor, hfree]
    exact (leastFree_erase hleast).free
  cases hget : m.get? (m.freeFor name) with
  | none => rfl
  | some value => exact absurd (mem_names_iff.2 ⟨value, hget⟩) hnot

/-- Only a reference to the name itself can still have it, and only when nothing stood there. -/
theorem aside_reference_eq_iff :
    (m.aside name).2 reference = name ↔ reference = name ∧ m.get? name = none := by
  cases hget : m.get? name with
  | none => simp [aside_of_none hget]
  | some value =>
    simp only [aside_of_some hget, reduceCtorEq, and_false, iff_false]
    by_cases hreference : reference = name
    · rw [hreference, rename_self]
      exact m.freeFor_ne name
    · rwa [rename_of_ne hreference]

/-- References go on leading where they led, but for one that has the name of the entry that made
way. -/
theorem get?_aside (m : NameMap α) (name reference : String) :
    (m.aside name).1.get? ((m.aside name).2 reference) =
      if reference = m.freeFor name then m.get? name else m.get? reference := by
  have hne := m.freeFor_ne name
  cases hget : m.get? name with
  | none =>
    simp only [aside_of_none hget, id]
    split
    · next heq => rw [heq, m.get?_freeFor name]
    · rfl
  | some value =>
    simp only [aside_of_some hget]
    by_cases hreference : reference = name
    · rw [hreference, rename_self, get?_insert, if_pos rfl, if_neg hne.symm, hget]
    · rw [rename_of_ne hreference, get?_insert, get?_erase, if_neg (Ne.symm hreference)]
      simp only [eq_comm]

/-- A reference that leads nowhere, and that has the name of the entry that is added or of the one
that makes way for it. -/
def Captured (m : NameMap α) (name : String) (added : Prop) (reference : String) : Prop :=
  m.get? reference = none ∧
    ((reference = name ∧ added) ∨ (reference = m.freeFor name ∧ m.contains name = true))

/-- Without an entry that is added, a reference that led nowhere leads nowhere unless it is
captured. -/
theorem get?_aside_eq_none_iff :
    (m.get? reference = none → (m.aside name).1.get? ((m.aside name).2 reference) = none) ↔
      ¬ Captured m name False reference := by
  rw [get?_aside, Captured, contains]
  by_cases hfree : reference = m.freeFor name
  · rw [if_pos hfree, hfree, get?_freeFor]
    cases m.get? name <;> simp
  · rw [if_neg hfree]
    simp [hfree]

theorem captured_iff {added : Prop} : Captured m name added reference ↔
    ((m.aside name).2 reference = name ∧ added) ∨ Captured m name False reference := by
  rw [aside_reference_eq_iff, Captured, Captured]
  by_cases hname : reference = name
  · subst hname
    tauto
  · tauto

/-- With an entry that is added, a reference has to keep clear of that entry as well. -/
theorem get?_insert_aside_iff (value : α) :
    ((m.get? reference = none →
        ((m.aside name).1.insert name value).get? ((m.aside name).2 reference) = none) ∧
      (m.aside name).2 reference ≠ name) ↔ ¬ Captured m name True reference := by
  rw [captured_iff, not_or, ← get?_aside_eq_none_iff, get?_insert]
  by_cases hname : (m.aside name).2 reference = name
  · simp [hname]
  · simp [hname, Ne.symm hname]

end NameMap

namespace Switch

open Kubeconfig

variable {before after middle last : Kubeconfig} {f f' g g' h h' : String → String}

/-! ### References that follow -/

/-- Every context of the first kubeconfig stands in the second under the name that `f` gives it,
with its references changed by `g` and `h`. -/
def Refers (f g h : String → String) (before after : Kubeconfig) : Prop :=
  ∀ name c, before.contexts.get? name = some c →
    after.contexts.get? (f name) = some ((c.refer .cluster g).refer .user h)

theorem Refers.trans (hfirst : Refers f g h before middle) (hlast : Refers f' g' h' middle last) :
    Refers (fun name ↦ f' (f name)) (fun name ↦ g' (g name)) (fun name ↦ h' (h name)) before
      last := by
  intro name c hc
  exact hlast _ _ (hfirst name c hc)

/-- The second kubeconfig is the first with contexts, clusters and users under other names, and
with references that follow. -/
structure Rewrites (f g h : String → String) (before after : Kubeconfig) : Prop where
  refers : Refers f g h before after
  clusters : ∀ name, after.clusters.get? (g name) = before.clusters.get? name
  users : ∀ name, after.users.get? (h name) = before.users.get? name
  cluster_injective : Function.Injective g
  user_injective : Function.Injective h

theorem Rewrites.refl (config : Kubeconfig) : Rewrites id id id config config where
  refers _ _ hc := hc
  clusters _ := rfl
  users _ := rfl
  cluster_injective := Function.injective_id
  user_injective := Function.injective_id

theorem Rewrites.trans (hfirst : Rewrites f g h before middle)
    (hlast : Rewrites f' g' h' middle last) :
    Rewrites (fun name ↦ f' (f name)) (fun name ↦ g' (g name)) (fun name ↦ h' (h name)) before
      last where
  refers := hfirst.refers.trans hlast.refers
  clusters name := (hlast.clusters _).trans (hfirst.clusters name)
  users name := (hlast.users _).trans (hfirst.users name)
  cluster_injective := hlast.cluster_injective.comp hfirst.cluster_injective
  user_injective := hlast.user_injective.comp hfirst.user_injective

variable {config config' : Kubeconfig} {a b : String}

theorem refers_referAll_cluster (f : String → String) (clusters : NameMap Cluster)
    (config : Kubeconfig) : Refers id f id config (referAll .cluster f { config with clusters }) := by
  intro name c hc
  simp only [referAll, NameMap.get?_map, id, hc]
  rfl

theorem refers_referAll_user (f : String → String) (users : NameMap User) (config : Kubeconfig) :
    Refers id id f config (referAll .user f { config with users }) := by
  intro name c hc
  simp only [referAll, NameMap.get?_map, id, hc]
  rfl

theorem rewrites_exchange_contexts {contexts : NameMap Context} (hab : a ≠ b)
    (hx : config.contexts.exchange? a b = some contexts) (current : String) :
    Rewrites (swapNames a b) id id config { config with contexts, current } where
  refers name _ hc := (NameMap.get?_exchange hab hx name).trans hc
  clusters _ := rfl
  users _ := rfl
  cluster_injective := Function.injective_id
  user_injective := Function.injective_id

theorem rewrites_exchangeClusters (hab : a ≠ b) (hx : exchangeClusters a b config = .ok config') :
    Rewrites id (swapNames a b) id config config' := by
  unfold exchangeClusters at hx
  cases hclusters : config.clusters.exchange? a b with
  | none => simp [hclusters] at hx
  | some clusters =>
    simp only [hclusters, Except.ok.injEq] at hx
    subst hx
    exact ⟨refers_referAll_cluster _ clusters config, NameMap.get?_exchange hab hclusters,
      fun _ ↦ rfl, (swapNames_involutive a b).injective, Function.injective_id⟩

theorem rewrites_exchangeUsers (hab : a ≠ b) (hx : exchangeUsers a b config = .ok config') :
    Rewrites id id (swapNames a b) config config' := by
  unfold exchangeUsers at hx
  cases husers : config.users.exchange? a b with
  | none => simp [husers] at hx
  | some users =>
    simp only [husers, Except.ok.injEq] at hx
    subst hx
    exact ⟨refers_referAll_user _ users config, fun _ ↦ rfl, NameMap.get?_exchange hab husers,
      Function.injective_id, (swapNames_involutive a b).injective⟩

theorem rewrites_exchangeTargets {context : Context} (hab : a ≠ b)
    (hcontext : config.contexts.get? b = some context)
    (hx : exchangeTargets a b config = .ok config') :
    ∃ g h, Rewrites (swapNames a b) g h config config' := by
  obtain ⟨contexts, hcontexts, hc⟩ := exists_exchange_contexts hab hcontext
  rw [exchangeTargets_eq hcontexts hc] at hx
  obtain ⟨middle, hmiddle, hlast⟩ := bind_eq_ok hx
  have hfirst := rewrites_exchange_contexts hab hcontexts a
  have hclusters : ∃ g, Rewrites id g id { config with contexts, current := a } middle := by
    split at hmiddle
    · exact ⟨_, rewrites_exchangeClusters hab hmiddle⟩
    · cases hmiddle
      exact ⟨id, Rewrites.refl _⟩
  have husers : ∃ h, Rewrites id id h middle config' := by
    split at hlast
    · exact ⟨_, rewrites_exchangeUsers hab hlast⟩
    · cases hlast
      exact ⟨id, Rewrites.refl _⟩
  obtain ⟨g, hg⟩ := hclusters
  obtain ⟨h, hh⟩ := husers
  exact ⟨_, _, (hfirst.trans hg).trans hh⟩

theorem rewrites_activate {source preferred : String} {outcome : Outcome}
    (hx : activate config source preferred = .ok outcome) :
    ∃ g h, Rewrites (turned config source preferred) g h config outcome.config := by
  obtain ⟨hsource, hcurrent⟩ := exists_of_activate hx
  rw [activate_of_exists hsource hcurrent] at hx
  split at hx
  · next hstays =>
    cases hx
    rw [turned_of_stays hstays]
    exact ⟨id, id, fun _ _ hc ↦ hc, fun _ ↦ rfl, fun _ ↦ rfl, Function.injective_id,
      Function.injective_id⟩
  · next hexchanged =>
    rw [turned_of_exchanged hexchanged]
    rw [not_or, not_not] at hexchanged
    obtain ⟨rfl, -⟩ := hexchanged
    obtain ⟨context, hcontext⟩ := NameMap.contains_iff.1 hsource
    cases htargets : exchangeTargets preferred (previousName preferred) config with
    | error failure =>
      rw [htargets] at hx
      cases hx
    | ok config' =>
      rw [htargets] at hx
      cases hx
      exact rewrites_exchangeTargets (previousName_ne preferred).symm hcontext htargets

/-! ### Making way and adding, with the references -/

variable {name : String} {target : Target}

theorem clearCluster_aside (name : String) (config : Kubeconfig) :
    Refers id (config.clusters.aside name).2 id config (clearCluster name config) ∧
      (clearCluster name config).clusters = (config.clusters.aside name).1 := by
  unfold clearCluster NameMap.aside
  cases config.clusters.moveAside? name with
  | none => exact ⟨fun _ _ hc ↦ hc, rfl⟩
  | some moved => exact ⟨refers_referAll_cluster _ moved.1 config, rfl⟩

theorem clearCluster_rest (name : String) (config : Kubeconfig) :
    (clearCluster name config).users = config.users ∧
      (clearCluster name config).contexts.names = config.contexts.names ∧
      (clearCluster name config).current = config.current := by
  unfold clearCluster
  cases config.clusters.moveAside? name with
  | none => exact ⟨rfl, rfl, rfl⟩
  | some moved => exact ⟨rfl, NameMap.names_map _ _, rfl⟩

theorem clearUser_aside (name : String) (config : Kubeconfig) :
    Refers id id (config.users.aside name).2 config (clearUser name config) ∧
      (clearUser name config).users = (config.users.aside name).1 := by
  unfold clearUser NameMap.aside
  cases config.users.moveAside? name with
  | none => exact ⟨fun _ _ hc ↦ hc, rfl⟩
  | some moved => exact ⟨refers_referAll_user _ moved.1 config, rfl⟩

theorem clearUser_rest (name : String) (config : Kubeconfig) :
    (clearUser name config).clusters = config.clusters ∧
      (clearUser name config).contexts.names = config.contexts.names ∧
      (clearUser name config).current = config.current := by
  unfold clearUser
  cases config.users.moveAside? name with
  | none => exact ⟨rfl, rfl, rfl⟩
  | some moved => exact ⟨rfl, NameMap.names_map _ _, rfl⟩

/-- What is current after the context of a name made way has the name only when no context had. -/
theorem clearContext_refers (name : String) (config : Kubeconfig) :
    ∃ number, LeastFree name config.contexts.names number ∧
      Refers (rename name (name ++ toString number)) id id config (clearContext name config) ∧
      (clearContext name config).contexts.get? name = none ∧
      (clearContext name config).clusters = config.clusters ∧
      (clearContext name config).users = config.users ∧
      ((clearContext name config).current = name ↔
        config.current = name ∧ config.contexts.contains name = false) := by
  unfold clearContext
  cases hx : config.contexts.moveAside? name with
  | none =>
    have habsent := NameMap.moveAside?_eq_none_iff.1 hx
    obtain ⟨number, -, hleast, -⟩ := exists_leastFree name config.contexts.names
    refine ⟨number, hleast, fun other c hc ↦ ?_, habsent, rfl, rfl, ?_⟩
    · exact (NameMap.relabels_rename_of_absent habsent _).get? hc
    · simp [NameMap.contains, habsent]
  | some moved =>
    obtain ⟨contexts, free⟩ := moved
    obtain ⟨number, hleast, rfl, hrelabels, hnone⟩ := NameMap.moveAside?_spec hx
    refine ⟨number, hleast, fun other c hc ↦ hrelabels.get? hc, hnone, rfl, rfl, ?_⟩
    have hpresent : config.contexts.get? name ≠ none := by
      rw [Ne, ← NameMap.moveAside?_eq_none_iff, hx]
      exact Option.some_ne_none _
    have hcontains : config.contexts.contains name = true := Option.isSome_iff_ne_none.2 hpresent
    rw [hcontains]
    simp only [Bool.true_eq_false, and_false, iff_false]
    by_cases hcurrent : config.current = name
    · rw [hcurrent, rename_self]
      exact numbered_ne name number
    · rwa [rename_of_ne hcurrent]

theorem refers_addTarget (hcontext : config.contexts.get? name = none) :
    Refers id id id config (addTarget name target config) :=
  fun _ _ hc ↦ NameMap.get?_insert_of_some hcontext hc _

/-- The kubeconfig that a merge prepares, before the exchange. -/
def prepare (name : String) (target : Target) (config : Kubeconfig) : Kubeconfig :=
  addTarget name target (clearContext name (clearUser name (clearCluster name config)))

/-- The entries and references of what a merge prepares. -/
theorem prepare_spec (name : String) (target : Target) (config : Kubeconfig) :
    ∃ number, LeastFree name config.contexts.names number ∧
      Refers (rename name (name ++ toString number)) (config.clusters.aside name).2
        (config.users.aside name).2 config (prepare name target config) ∧
      (prepare name target config).clusters =
        (config.clusters.aside name).1.insert name target.cluster ∧
      (prepare name target config).users =
        (match target.user with
          | none => (config.users.aside name).1
          | some user => (config.users.aside name).1.insert name user) ∧
      ((prepare name target config).current = name ↔
        config.current = name ∧ config.contexts.contains name = false) := by
  obtain ⟨hrefers, hclusters⟩ := clearCluster_aside name config
  obtain ⟨husers, hnames, hcurrent⟩ := clearCluster_rest name config
  obtain ⟨hrefers', husers'⟩ := clearUser_aside name (clearCluster name config)
  obtain ⟨hclusters', hnames', hcurrent'⟩ := clearUser_rest name (clearCluster name config)
  obtain ⟨number, hleast, hrefers'', hnone, hclusters'', husers'', hcurrent''⟩ :=
    clearContext_refers name (clearUser name (clearCluster name config))
  rw [hnames', hnames] at hleast
  rw [husers] at hrefers' husers'
  have hadded : Refers id id id _ (prepare name target config) := refers_addTarget hnone
  refine ⟨number, hleast, ((hrefers.trans hrefers').trans hrefers'').trans hadded, ?_, ?_, ?_⟩
  · rw [prepare, addTarget, hclusters'', hclusters', hclusters]
  · cases huser : target.user with
    | none => simp only [prepare, addTarget, huser, husers'', husers']
    | some user => simp only [prepare, addTarget, huser, husers'', husers']
  · have hcontains : (clearUser name (clearCluster name config)).contexts.contains name =
        config.contexts.contains name := by
      rw [Bool.eq_iff_iff, NameMap.contains_iff_mem_names, NameMap.contains_iff_mem_names, hnames',
        hnames]
    rw [hcurrent', hcurrent, hcontains] at hcurrent''
    exact hcurrent''

theorem merge_eq_activate {dest source : Kubeconfig} {preferred : String}
    (htarget : source.resolve name = .ok target) :
    merge dest source name preferred =
      activate (prepare (previousName preferred) target dest) (previousName preferred) preferred := by
  rw [merge, htarget]
  rfl

/-! ### A whole merge -/

/-- The names under which the contexts of the destination are found after any merge that succeeds.
They stay when the name of the previous target is current without a context of that name: then
nothing is exchanged. -/
def relocated (dest : Kubeconfig) (preferred : String) (number : Nat) (name : String) : String :=
  if dest.current = previousName preferred ∧
      dest.contexts.contains (previousName preferred) = false then name
  else displaced preferred number name

theorem turned_prepare {dest prepared : Kubeconfig} {preferred other : String} {number : Nat}
    (hcurrent : prepared.current = previousName preferred ↔
      dest.current = previousName preferred ∧
        dest.contexts.contains (previousName preferred) = false)
    (hother : dest.contexts.contains other = true) :
    turned prepared (previousName preferred) preferred
        (rename (previousName preferred) (previousName preferred ++ toString number) other) =
      relocated dest preferred number other := by
  unfold relocated
  by_cases hstays : dest.current = previousName preferred ∧
      dest.contexts.contains (previousName preferred) = false
  · have hne : other ≠ previousName preferred := by
      rintro rfl
      rw [hstays.2] at hother
      cases hother
    rw [if_pos hstays, turned_of_stays (Or.inr (hcurrent.2 hstays)), rename_of_ne hne, id]
  · have hexchanged : ¬ (previousName preferred ≠ previousName preferred ∨
        prepared.current = previousName preferred) := by
      rw [not_or, not_not]
      exact ⟨rfl, fun heq ↦ hstays (hcurrent.1 heq)⟩
    rw [if_neg hstays, turned_of_exchanged hexchanged, swapNames_rename]

/-- A context `c` that became `c'` gained nothing by the addition of a target, of which `new` is the
context: what led nowhere leads nowhere, and no reference is to an entry of the target. -/
structure GainsNothing (before after : Kubeconfig) (target : Target) (new c c' : Context) : Prop where
  cluster : before.clusters.get? c.cluster = none → after.clusters.get? c'.cluster = none
  user : before.users.get? c.user = none → after.users.get? c'.user = none
  otherCluster : c'.cluster ≠ new.cluster
  otherUser : target.user.isSome = true → c'.user ≠ new.user

/-- In kubeconfigs that agree but for names, nothing is gained exactly by what is not captured. -/
theorem gainsNothing_iff {dest prepared last : Kubeconfig} {shadow : String}
    (hclusters : prepared.clusters = (dest.clusters.aside shadow).1.insert shadow target.cluster)
    (husers : prepared.users = match target.user with
      | none => (dest.users.aside shadow).1
      | some user => (dest.users.aside shadow).1.insert shadow user)
    (hrewrites : Rewrites f g h prepared last) {new c c' : Context}
    (hnewCluster : new.cluster = g shadow)
    (hnewUser : target.user.isSome = true → new.user = h shadow)
    (hcluster : c'.cluster = g ((dest.clusters.aside shadow).2 c.cluster))
    (huser : c'.user = h ((dest.users.aside shadow).2 c.user)) :
    GainsNothing dest last target new c c' ↔
      ¬ dest.clusters.Captured shadow True c.cluster ∧
        ¬ dest.users.Captured shadow (target.user.isSome = true) c.user := by
  have hclusterIff : (dest.clusters.get? c.cluster = none →
        ((dest.clusters.aside shadow).1.insert shadow target.cluster).get?
          ((dest.clusters.aside shadow).2 c.cluster) = none) ∧
      (dest.clusters.aside shadow).2 c.cluster ≠ shadow ↔
      ¬ dest.clusters.Captured shadow True c.cluster :=
    NameMap.get?_insert_aside_iff target.cluster
  rw [← hclusters, ← hrewrites.clusters, ← hcluster, ← hrewrites.cluster_injective.ne_iff,
    ← hcluster, ← hnewCluster] at hclusterIff
  have huserIff : (dest.users.get? c.user = none → last.users.get? c'.user = none) ∧
      (target.user.isSome = true → c'.user ≠ new.user) ↔
      ¬ dest.users.Captured shadow (target.user.isSome = true) c.user := by
    cases htarget : target.user with
    | none =>
      rw [htarget] at husers
      rw [huser, hrewrites.users, husers]
      simpa using NameMap.get?_aside_eq_none_iff
    | some user =>
      rw [htarget] at husers hnewUser
      rw [hnewUser rfl, huser, hrewrites.users, hrewrites.user_injective.ne_iff, husers]
      simpa using NameMap.get?_insert_aside_iff user
  rw [← hclusterIff, ← huserIff]
  constructor
  · rintro ⟨hc, hu, hother, hotherUser⟩
    exact ⟨⟨hc, hother⟩, hu, hotherUser⟩
  · rintro ⟨⟨hc, hother⟩, hu, hotherUser⟩
    exact ⟨hc, hu, hother, hotherUser⟩

/-- What a merge stores for its target, and what the contexts of the destination gain by it: nothing,
but for those of which a reference led nowhere and had the name of an entry that was added or made
way. -/
theorem merge_gains_nothing_iff (dest source : Kubeconfig) (name preferred : String)
    (outcome : Outcome) (hpreferred : preferred ≠ "")
    (hmerge : merge dest source name preferred = .ok outcome) :
    ∃ target number new, source.resolve name = .ok target ∧
      LeastFree (previousName preferred) dest.contexts.names number ∧
      outcome.config.contexts.get? outcome.config.current = some new ∧
      outcome.config.clusters.get? new.cluster = some target.cluster ∧
      (∀ user, target.user = some user → outcome.config.users.get? new.user = some user) ∧
      ∀ other c, dest.contexts.get? other = some c →
        ∃ c', outcome.config.contexts.get? (relocated dest preferred number other) = some c' ∧
          c'.body = c.body ∧
          (GainsNothing dest outcome.config target new c c' ↔
            ¬ dest.clusters.Captured (previousName preferred) True c.cluster ∧
              ¬ dest.users.Captured (previousName preferred) (target.user.isSome = true) c.user) := by
  obtain ⟨target, htarget, -⟩ := bind_eq_ok hmerge
  rw [merge_eq_activate htarget] at hmerge
  obtain ⟨number, hleast, hrefers, hclusters, husers, hcurrent⟩ :=
    prepare_spec (previousName preferred) target dest
  obtain ⟨g, h, hrewrites⟩ := rewrites_activate hmerge
  obtain ⟨-, hnow, -⟩ := activate_ok hpreferred hmerge
  have hnew := hrewrites.refers _ _ (contexts_get?_addTarget (previousName preferred) target
    (clearContext (previousName preferred) (clearUser (previousName preferred)
      (clearCluster (previousName preferred) dest))))
  rw [← hnow] at hnew
  refine ⟨target, number, _, htarget, hleast, hnew, ?_, fun user huser ↦ ?_, fun other c hc ↦ ?_⟩
  · refine (hrewrites.clusters _).trans ?_
    rw [hclusters, NameMap.get?_insert, if_pos rfl]
  · simp only [Context.refer, huser, Option.isSome_some, if_true, hrewrites.users, husers,
      NameMap.get?_insert]
  · have hstands := hrewrites.refers _ _ (hrefers other c hc)
    rw [turned_prepare hcurrent (NameMap.contains_iff.2 ⟨c, hc⟩)] at hstands
    refine ⟨_, hstands, ?_, ?_⟩
    · simp only [Context.body_refer]
    · refine gainsNothing_iff hclusters husers hrewrites rfl (fun hsome ↦ ?_) rfl rfl
      simp only [Context.refer, hsome, if_true]

/-- A context that refers to entries which do not exist, by the name of the previous target. -/
def bereft : Kubeconfig where
  contexts := NameMap.ofList [("legacy", { cluster := "up-previous", user := "up-previous" })]

/-- A kubeconfig with a target of which the user has a token. -/
def newcomer : Kubeconfig where
  clusters := NameMap.ofList [("n", { server := "https://new" })]
  users := NameMap.ofList [("n", { token := some "t" })]
  contexts := NameMap.ofList [("n", { cluster := "n", user := "n" })]
  current := "n"

/-- In the crowded kubeconfig nothing is captured by a target without a user. -/
theorem merge_gains_nothing_iff_crowded :
    "up" ≠ "" ∧ ∃ outcome new c', merge crowded userless "team" "up" = .ok outcome ∧
      outcome.config.contexts.get? outcome.config.current = some new ∧
      outcome.config.contexts.get? "legacy" = some c' ∧ c'.cluster ≠ new.cluster := by
  have hpreferred : "up" ≠ "" := by decide
  have hok : (merge crowded userless "team" "up").isOk = true := by decide +kernel
  cases h : merge crowded userless "team" "up" with
  | error failure =>
    rw [h] at hok
    cases hok
  | ok outcome =>
    obtain ⟨target, number, new, htarget, -, hnew, -, -, hcontexts⟩ :=
      merge_gains_nothing_iff crowded userless "team" "up" outcome hpreferred h
    obtain ⟨c', hc', -, hgains⟩ :=
      hcontexts "legacy" { cluster := "up-previous", user := "up-previous" } rfl
    have hstays : relocated crowded "up" number "legacy" = "legacy" := by
      rw [relocated, if_neg (by decide), displaced, if_neg (by decide), if_neg (by decide)]
    rw [hstays] at hc'
    have hcluster : ¬ crowded.clusters.Captured "up-previous" True "up-previous" := by
      rintro ⟨hnone, -⟩
      cases hnone
    have huser : ¬ crowded.users.Captured "up-previous" (target.user.isSome = true)
        "up-previous" := by
      rintro ⟨hnone, -⟩
      cases hnone
    exact ⟨hpreferred, outcome, new, c', rfl, hnew, hc', (hgains.2 ⟨hcluster, huser⟩).otherCluster⟩

/-- A context of which both references led nowhere gets the cluster and the token of a new target. -/
theorem merge_captures_dangling :
    ∃ outcome c c', merge bereft newcomer "n" "up" = .ok outcome ∧
      bereft.contexts.get? "legacy" = some c ∧ bereft.clusters.get? c.cluster = none ∧
      bereft.users.get? c.user = none ∧ outcome.config.contexts.get? "legacy" = some c' ∧
      outcome.config.clusters.get? c'.cluster = some { server := "https://new" } ∧
      outcome.config.users.get? c'.user = some { token := some "t" } ∧
      ∃ new, outcome.config.contexts.get? outcome.config.current = some new ∧
        c'.cluster = new.cluster ∧ c'.user = new.user := by
  refine ⟨_, _, _, rfl, rfl, rfl, rfl, rfl, rfl, rfl, _, rfl, rfl, rfl⟩

end Switch

end Wayfinder
