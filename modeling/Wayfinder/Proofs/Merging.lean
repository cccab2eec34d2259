import Wayfinder.Proofs.Activation

/-!
Taking a target of one kubeconfig into another. Main statement: a merge succeeds exactly when the
target resolves; then every context of the destination that resolved stands for what it stood for,
under its new name, and the canonical name stands for the target (`merge_captures_target`).

The entries under the name of the previous target make way one map at a time, the target is added
under the freed name, and the exchange of `Activation` brings it under the canonical one. What
carries the argument is that no reference that leads somewhere has the name of a free entry.
-/

set_option autoImplicit false
set_option relaxedAutoImplicit false

namespace Wayfinder

namespace Kubeconfig

/-- Every context that resolves in the first kubeconfig stands for the same in the second, under the
name that `f` gives it, and the second holds the entries of the first and no others. -/
structure Carries (f : String → String) (before after : Kubeconfig) : Prop where
  meaning : ∀ name meaning, before.meaning? name = some meaning →
    after.meaning? (f name) = some meaning
  names : after.contexts.names.Perm (before.contexts.names.map f)
  clusters : after.clusters.values = before.clusters.values
  users : after.users.values = before.users.values
  rest : SameRest before after

theorem Carries.refl (config : Kubeconfig) : Carries id config config where
  meaning _ _ h := h
  names := by rw [List.map_id]
  clusters := rfl
  users := rfl
  rest := SameRest.refl config

theorem Carries.currentExists {f : String → String} {before after : Kubeconfig}
    (h : Carries f before after) (hempty : f "" = "") (hcurrent : after.current = f before.current)
    (hbefore : Switch.CurrentExists before) : Switch.CurrentExists after := by
  rcases hbefore with hnone | hexists
  · refine Or.inl ?_
    rw [hcurrent, hnone, hempty]
  · refine Or.inr ?_
    rw [NameMap.contains_iff_mem_names] at hexists ⊢
    rw [hcurrent]
    exact h.names.mem_iff.2 (List.mem_map_of_mem hexists)

theorem Carries.trans {f g : String → String} {first middle last : Kubeconfig}
    (h : Carries f first middle) (h' : Carries g middle last) :
    Carries (fun name ↦ g (f name)) first last where
  meaning name meaning hname := h'.meaning _ _ (h.meaning name meaning hname)
  names := by
    have hnames := h'.names.trans (h.names.map g)
    rwa [List.map_map] at hnames
  clusters := h'.clusters.trans h.clusters
  users := h'.users.trans h.users
  rest := h.rest.trans h'.rest

/-- The second kubeconfig is the first with a target added under a name, and with the contexts of
before under the names that `f` gives them. -/
structure Adds (f : String → String) (target : Target) (name : String)
    (before after : Kubeconfig) : Prop where
  names : after.contexts.names.Perm (name :: before.contexts.names.map f)
  kept : ∀ other meaning, before.meaning? other = some meaning →
    after.meaning? (f other) = some meaning
  added : after.meaning? name = some target.meaning
  clusters : after.clusters.values = target.cluster ::ₘ before.clusters.values
  users : after.users.values = (target.user.toList : Multiset User) + before.users.values
  rest : SameRest before after

variable {f g : String → String} {target : Target} {name : String}
  {first middle last : Kubeconfig}

theorem Adds.after_carries (h : Carries f first middle) (h' : Adds g target name middle last) :
    Adds (fun other ↦ g (f other)) target name first last where
  names := by
    have hnames := h'.names.trans ((h.names.map g).cons name)
    rwa [List.map_map] at hnames
  kept other meaning hother := h'.kept _ _ (h.meaning other meaning hother)
  added := h'.added
  clusters := by rw [h'.clusters, h.clusters]
  users := by rw [h'.users, h.users]
  rest := h.rest.trans h'.rest

theorem Adds.before_renames (h : Adds f target name first middle) (h' : Renames g middle last) :
    Adds (fun other ↦ g (f other)) target (g name) first last where
  names := by
    have hnames := h'.names.trans (h.names.map g)
    rwa [List.map_cons, List.map_map] at hnames
  kept other meaning hother := (h'.meaning? (f other)).trans (h.kept other meaning hother)
  added := (h'.meaning? name).trans h.added
  clusters := h'.clusters.trans h.clusters
  users := h'.users.trans h.users
  rest := h.rest.trans h'.rest

end Kubeconfig

namespace Switch

open Kubeconfig

variable {config : Kubeconfig} {name : String}

/-! ### Making way -/

theorem carries_referAll_cluster {f : String → String} {clusters : NameMap Cluster}
    (h : NameMap.Relabels f config.clusters clusters) :
    Carries id config (referAll .cluster f { config with clusters }) where
  meaning other meaning hother := by
    obtain ⟨c, hc, hcluster, huser, hbody⟩ := meaning?_eq_some_iff.1 hother
    refine meaning?_eq_some_iff.2 ⟨c.refer .cluster f, ?_, h.get? hcluster, huser, hbody⟩
    simp [referAll, hc]
  names := by rw [List.map_id, referAll, NameMap.names_map]
  clusters := h.values
  users := rfl
  rest := ⟨rfl, rfl, rfl, rfl, rfl⟩

theorem carries_referAll_user {f : String → String} {users : NameMap User}
    (hempty : ∀ name, f name = "" ↔ name = "") (h : NameMap.Relabels f config.users users) :
    Carries id config (referAll .user f { config with users }) where
  meaning other meaning hother := by
    obtain ⟨c, hc, hcluster, huser, hbody⟩ := meaning?_eq_some_iff.1 hother
    refine meaning?_eq_some_iff.2 ⟨c.refer .user f, ?_, hcluster, ?_, hbody⟩
    · simp [referAll, hc]
    · rw [toOption_userOf] at huser
      simp only [toOption_userOf, Context.refer, referAll, hempty]
      by_cases hnone : c.user = ""
      · rwa [if_pos hnone] at huser ⊢
      · rw [if_neg hnone] at huser ⊢
        obtain ⟨user, hget, hsome⟩ := Option.map_eq_some_iff.1 huser
        rw [h.get? hget, Option.map_some, hsome]
  names := by rw [List.map_id, referAll, NameMap.names_map]
  clusters := rfl
  users := h.values
  rest := ⟨rfl, rfl, rfl, rfl, rfl⟩

theorem clearCluster_spec (name : String) (config : Kubeconfig) :
    Carries id config (clearCluster name config) ∧
      (clearCluster name config).clusters.get? name = none ∧
      (clearCluster name config).contexts.names = config.contexts.names ∧
      (clearCluster name config).current = config.current := by
  unfold clearCluster
  cases hx : config.clusters.moveAside? name with
  | none => exact ⟨Carries.refl config, NameMap.moveAside?_eq_none_iff.1 hx, rfl, rfl⟩
  | some moved =>
    obtain ⟨clusters, free⟩ := moved
    obtain ⟨number, -, -, hrelabels, hnone⟩ := NameMap.moveAside?_spec hx
    exact ⟨carries_referAll_cluster hrelabels, hnone, NameMap.names_map _ _, rfl⟩

theorem rename_eq_empty_iff {a b : String} (ha : a ≠ "") (hb : b ≠ "") (other : String) :
    rename a b other = "" ↔ other = "" := by
  unfold rename
  split
  · next h => simp [h, ha, hb]
  · rfl

theorem clearUser_spec (hname : name ≠ "") (config : Kubeconfig) :
    Carries id config (clearUser name config) ∧
      (clearUser name config).users.get? name = none ∧
      (clearUser name config).clusters = config.clusters ∧
      (clearUser name config).contexts.names = config.contexts.names ∧
      (clearUser name config).current = config.current := by
  unfold clearUser
  cases hx : config.users.moveAside? name with
  | none => exact ⟨Carries.refl config, NameMap.moveAside?_eq_none_iff.1 hx, rfl, rfl, rfl⟩
  | some moved =>
    obtain ⟨users, free⟩ := moved
    obtain ⟨number, -, hfree, hrelabels, hnone⟩ := NameMap.moveAside?_spec hx
    have hfreeName : free ≠ "" := by
      rw [hfree]
      intro h
      exact hname (String.append_eq_empty_iff.1 h).1
    exact ⟨carries_referAll_user (rename_eq_empty_iff hname hfreeName) hrelabels, hnone, rfl,
      NameMap.names_map _ _, rfl⟩

theorem carries_contexts {f : String → String} {contexts : NameMap Context}
    (h : NameMap.Relabels f config.contexts contexts) (current : String) :
    Carries f config { config with contexts, current } where
  meaning other meaning hother := by
    obtain ⟨c, hc, hrest⟩ := meaning?_eq_some_iff.1 hother
    exact meaning?_eq_some_iff.2 ⟨c, h.get? hc, hrest⟩
  names := h.names
  clusters := rfl
  users := rfl
  rest := ⟨rfl, rfl, rfl, rfl, rfl⟩

/-- The context of a name makes way; when it was current it still is. -/
theorem clearContext_spec (hname : name ≠ "") (config : Kubeconfig) :
    ∃ number, LeastFree name config.contexts.names number ∧
      Carries (rename name (name ++ toString number)) config (clearContext name config) ∧
      (clearContext name config).contexts.get? name = none ∧
      (clearContext name config).clusters = config.clusters ∧
      (clearContext name config).users = config.users ∧
      (CurrentExists config → (clearContext name config).current =
        rename name (name ++ toString number) config.current) := by
  unfold clearContext
  cases hx : config.contexts.moveAside? name with
  | none =>
    have habsent := NameMap.moveAside?_eq_none_iff.1 hx
    obtain ⟨number, -, hleast, -⟩ := exists_leastFree name config.contexts.names
    refine ⟨number, hleast, ?_, habsent, rfl, rfl, fun hcurrent ↦ ?_⟩
    · exact carries_contexts (NameMap.relabels_rename_of_absent habsent _) config.current
    · refine (rename_of_ne fun heq ↦ ?_).symm
      rcases hcurrent with hnone | hexists
      · exact hname (heq.symm.trans hnone)
      · rw [heq, NameMap.contains, habsent] at hexists
        cases hexists
  | some moved =>
    obtain ⟨contexts, free⟩ := moved
    obtain ⟨number, hleast, hfree, hrelabels, hnone⟩ := NameMap.moveAside?_spec hx
    subst hfree
    exact ⟨number, hleast, carries_contexts hrelabels _, hnone, rfl, rfl, fun _ ↦ rfl⟩

/-- What stands under a name makes way in all three maps. -/
theorem cleared_spec (hname : name ≠ "") (config : Kubeconfig) :
    ∃ number, LeastFree name config.contexts.names number ∧
      ∃ cleared, cleared = clearContext name (clearUser name (clearCluster name config)) ∧
        Carries (rename name (name ++ toString number)) config cleared ∧
        cleared.clusters.get? name = none ∧ cleared.users.get? name = none ∧
        cleared.contexts.get? name = none ∧
        (CurrentExists config →
          cleared.current = rename name (name ++ toString number) config.current) := by
  obtain ⟨hcluster, hnoCluster, hnames, hcurrent⟩ := clearCluster_spec name config
  obtain ⟨huser, hnoUser, hclusters, hnames', hcurrent'⟩ :=
    clearUser_spec hname (clearCluster name config)
  obtain ⟨number, hleast, hcontext, hnoContext, hclusters', husers, hcurrent''⟩ :=
    clearContext_spec hname (clearUser name (clearCluster name config))
  rw [hnames', hnames] at hleast
  refine ⟨number, hleast, _, rfl, (hcluster.trans huser).trans hcontext, ?_, ?_, hnoContext, ?_⟩
  · rw [hclusters', hclusters, hnoCluster]
  · rw [husers, hnoUser]
  · intro hexists
    have hmiddle : CurrentExists (clearUser name (clearCluster name config)) :=
      huser.currentExists rfl hcurrent' (hcluster.currentExists rfl hcurrent hexists)
    rw [hcurrent'' hmiddle, hcurrent', hcurrent]

/-! ### Adding a target -/

variable {target : Target}

/-- No reference that leads somewhere has the name of the new entries. -/
theorem meaning?_addTarget_of_some (hcluster : config.clusters.get? name = none)
    (huser : config.users.get? name = none) (hcontext : config.contexts.get? name = none)
    {other : String} {meaning : Meaning} (hother : config.meaning? other = some meaning) :
    (addTarget name target config).meaning? other = some meaning := by
  obtain ⟨c, hc, hclusterOf, huserOf, hbody⟩ := meaning?_eq_some_iff.1 hother
  refine meaning?_eq_some_iff.2 ⟨c, NameMap.get?_insert_of_some hcontext hc _,
    NameMap.get?_insert_of_some hcluster hclusterOf _, ?_, hbody⟩
  rw [toOption_userOf] at huserOf ⊢
  by_cases hnone : c.user = ""
  · rwa [if_pos hnone] at huserOf ⊢
  · rw [if_neg hnone] at huserOf ⊢
    obtain ⟨user, hget, hsome⟩ := Option.map_eq_some_iff.1 huserOf
    have hkept : (addTarget name target config).users.get? c.user = some user := by
      cases htarget : target.user with
      | none => simp only [addTarget, htarget, hget]
      | some new => simp only [addTarget, htarget, NameMap.get?_insert_of_some huser hget new]
    rw [hkept, Option.map_some, hsome]

theorem contexts_get?_addTarget (name : String) (target : Target) (config : Kubeconfig) :
    (addTarget name target config).contexts.get? name =
      some { target.context with
        cluster := name
        user := if target.user.isSome then name else "" } := by
  simp [addTarget]

theorem meaning?_addTarget_self (hname : name ≠ "") (config : Kubeconfig) (target : Target) :
    (addTarget name target config).meaning? name = some target.meaning := by
  refine meaning?_eq_some_iff.2 ⟨_, contexts_get?_addTarget name target config, ?_, ?_, rfl⟩
  · simp [addTarget, Target.meaning]
  · cases htarget : target.user with
    | none => simp [toOption_userOf, Target.meaning, htarget]
    | some user => simp [toOption_userOf, addTarget, Target.meaning, htarget, hname]

theorem adds_addTarget (hname : name ≠ "") (hcluster : config.clusters.get? name = none)
    (huser : config.users.get? name = none) (hcontext : config.contexts.get? name = none) :
    Adds id target name config (addTarget name target config) where
  names := by
    rw [List.map_id]
    exact NameMap.names_insert _ hcontext
  kept _ _ hother := meaning?_addTarget_of_some hcluster huser hcontext hother
  added := meaning?_addTarget_self hname config target
  clusters := NameMap.values_insert target.cluster hcluster
  users := by
    cases htarget : target.user with
    | none => simp [addTarget, htarget]
    | some user => simp [addTarget, htarget, NameMap.values_insert user huser]
  rest := ⟨rfl, rfl, rfl, rfl, rfl⟩

/-! ### A whole merge -/

/-- The names under which the contexts of the destination are found after a merge: the current
target becomes the previous one, and what had that name gets a number. -/
def displaced (preferred : String) (number : Nat) (name : String) : String :=
  if name = preferred then previousName preferred
  else if name = previousName preferred then previousName preferred ++ toString number
  else name

theorem swapNames_rename (preferred : String) (number : Nat) (name : String) :
    swapNames preferred (previousName preferred)
        (rename (previousName preferred) (previousName preferred ++ toString number) name) =
      displaced preferred number name := by
  unfold displaced
  by_cases hname : name = preferred
  · rw [if_pos hname, hname, rename_of_ne (previousName_ne preferred).symm, swapNames_left]
  · rw [if_neg hname]
    by_cases hprevious : name = previousName preferred
    · rw [if_pos hprevious, hprevious, rename_self]
      exact swapNames_of_ne (previousName_append_ne preferred _) (numbered_ne _ number)
    · rw [if_neg hprevious, rename_of_ne hprevious, swapNames_of_ne hname hprevious]

/-- What is current after the entries of a name made way is not the context of that name. -/
theorem current_ne_of_absent (hname : name ≠ "") (hcontext : config.contexts.get? name = none)
    (hcurrent : CurrentExists config) : config.current ≠ name := by
  intro heq
  rcases hcurrent with hnone | hcontains
  · exact hname (heq.symm.trans hnone)
  · rw [heq, NameMap.contains, hcontext] at hcontains
    cases hcontains

/-- What is prepared under the name of the previous target, before the exchange. -/
theorem exists_prepared {dest source : Kubeconfig} (preferred : String)
    (hcurrent : CurrentExists dest) (htarget : source.resolve name = .ok target) :
    ∃ prepared number,
      merge dest source name preferred = activate prepared (previousName preferred) preferred ∧
      LeastFree (previousName preferred) dest.contexts.names number ∧
      Adds (rename (previousName preferred) (previousName preferred ++ toString number)) target
        (previousName preferred) dest prepared ∧
      prepared.current ≠ previousName preferred ∧ CurrentExists prepared ∧
      prepared.current = rename (previousName preferred)
        (previousName preferred ++ toString number) dest.current := by
  have hprevious := previousName_ne_empty preferred
  obtain ⟨number, hleast, cleared, hcleared, hcarries, hnoCluster, hnoUser, hnoContext, hmoved⟩ :=
    cleared_spec hprevious dest
  have hadds : Adds id target (previousName preferred) cleared
      (addTarget (previousName preferred) target cleared) :=
    adds_addTarget hprevious hnoCluster hnoUser hnoContext
  have hall := Adds.after_carries hcarries hadds
  have hexists : CurrentExists cleared :=
    hcarries.currentExists (rename_of_ne hprevious.symm) (hmoved hcurrent) hcurrent
  have hother : cleared.current ≠ previousName preferred :=
    current_ne_of_absent hprevious hnoContext hexists
  refine ⟨addTarget (previousName preferred) target cleared, number, ?_, hleast, hall, hother, ?_,
    hmoved hcurrent⟩
  · rw [merge, htarget, hcleared]
    rfl
  · refine hexists.imp id fun hcontains ↦ ?_
    rw [NameMap.contains_iff_mem_names] at hcontains ⊢
    refine hadds.names.mem_iff.2 (List.mem_cons_of_mem _ ?_)
    rwa [List.map_id]

/-- A merge of a target that resolves succeeds; what was current is found again under `last`. -/
theorem merge_ok {dest source : Kubeconfig} {preferred : String} (hpreferred : preferred ≠ "")
    (hcurrent : CurrentExists dest) (htarget : source.resolve name = .ok target) :
    ∃ outcome number, merge dest source name preferred = .ok outcome ∧
      LeastFree (previousName preferred) dest.contexts.names number ∧
      Adds (displaced preferred number) target preferred dest outcome.config ∧
      outcome.config.current = preferred ∧
      outcome.last = displaced preferred number dest.current := by
  obtain ⟨prepared, number, hmerge, hleast, hadds, hother, hexists, hmoved⟩ :=
    exists_prepared preferred hcurrent htarget
  obtain ⟨outcome, houtcome⟩ := activate_succeeds hadds.added hexists
  obtain ⟨hrenames, hnow, hlast⟩ := activate_ok hpreferred houtcome
  have hturned : turned prepared (previousName preferred) preferred =
      swapNames preferred (previousName preferred) := by
    refine turned_of_exchanged ?_
    rintro (hne | hsame)
    · exact hne rfl
    · exact hother hsame
  rw [hturned] at hrenames hnow hlast
  have hall := hadds.before_renames hrenames
  simp only [swapNames_rename, swapNames_right] at hall
  refine ⟨outcome, number, hmerge.trans houtcome, hleast, hall, ?_, ?_⟩
  · rw [hnow, swapNames_right]
  · rw [hlast, hmoved, swapNames_rename]

/-- A merge succeeds exactly when its target resolves. It adds the target under the canonical name,
where it is current, and every context of the destination that resolves stands under its new name
for what it stood for. -/
theorem merge_captures_target (dest source : Kubeconfig) (name preferred : String)
    (hpreferred : preferred ≠ "") (hcurrent : CurrentExists dest) :
    ((∃ outcome, merge dest source name preferred = .ok outcome) ↔
      ∃ target, source.resolve name = .ok target) ∧
    ∀ outcome, merge dest source name preferred = .ok outcome →
      ∃ target number, source.resolve name = .ok target ∧
        LeastFree (previousName preferred) dest.contexts.names number ∧
        Adds (displaced preferred number) target preferred dest outcome.config ∧
        outcome.config.current = preferred := by
  constructor
  · constructor
    · rintro ⟨outcome, houtcome⟩
      obtain ⟨target, htarget, -⟩ := bind_eq_ok houtcome
      exact ⟨target, htarget⟩
    · rintro ⟨target, htarget⟩
      obtain ⟨outcome, -, houtcome, -⟩ := merge_ok hpreferred hcurrent htarget
      exact ⟨outcome, houtcome⟩
  · intro outcome houtcome
    obtain ⟨target, htarget, -⟩ := bind_eq_ok houtcome
    obtain ⟨outcome', number, houtcome', hleast, hadds, hnow, -⟩ :=
      merge_ok hpreferred hcurrent htarget
    obtain rfl : outcome' = outcome := Except.ok.inj (houtcome'.symm.trans houtcome)
    exact ⟨target, number, htarget, hleast, hadds, hnow⟩

/-- A kubeconfig in which the names of the previous target and of its first number are taken. -/
def crowded : Kubeconfig where
  clusters := NameMap.ofList
    [("up", { server := "https://a" }), ("up-previous", { server := "https://b" }),
      ("up-previous1", { server := "https://c" })]
  users := NameMap.ofList [("up", { token := some "t" }), ("up-previous", { token := some "u" })]
  contexts := NameMap.ofList
    [("legacy", { cluster := "up-previous", user := "up-previous" }),
      ("up", { cluster := "up", user := "up" }),
      ("up-previous", { cluster := "up-previous", user := "up" }),
      ("up-previous1", { cluster := "up-previous1" })]
  current := "up-previous"

/-- A kubeconfig with a target that does without a user. -/
def userless : Kubeconfig where
  clusters := NameMap.ofList [("space", { server := "https://d" })]
  contexts := NameMap.ofList [("team", { cluster := "space", namespaceName := some "a" })]
  current := "team"

theorem merge_captures_target_crowded :
    "up" ≠ "" ∧ CurrentExists crowded ∧ ∃ outcome, merge crowded userless "team" "up" = .ok outcome ∧
      outcome.config.current = "up" ∧ outcome.config.meaning? "up" = userless.meaning? "team" ∧
      outcome.config.meaning? "legacy" = crowded.meaning? "legacy" ∧
      outcome.config.meaning? "up-previous" = crowded.meaning? "up" ∧
      outcome.config.meaning? "up-previous2" = crowded.meaning? "up-previous" := by
  have hpreferred : "up" ≠ "" := by decide
  have hcurrent : CurrentExists crowded := Or.inr (by decide)
  obtain ⟨hsucceeds, hcaptures⟩ :=
    merge_captures_target crowded userless "team" "up" hpreferred hcurrent
  obtain ⟨outcome, houtcome⟩ := hsucceeds.2 ⟨_, rfl⟩
  obtain ⟨target, number, htarget, hleast, hadds, hnow⟩ := hcaptures outcome houtcome
  have hfirst : number ≠ 1 := by
    rintro rfl
    exact hleast.free (by decide)
  have hsecond : ¬ 2 < number := fun hlt ↦
    absurd (hleast.taken 2 (by decide) hlt) (by decide)
  have hpos := hleast.pos
  obtain rfl : number = 2 := by omega
  have hkept : ∀ name, (crowded.meaning? name).isSome = true →
      outcome.config.meaning? (displaced "up" 2 name) = crowded.meaning? name := by
    intro name hname
    obtain ⟨meaning, hmeaning⟩ := Option.isSome_iff_exists.1 hname
    rw [hmeaning]
    exact hadds.kept name meaning hmeaning
  refine ⟨hpreferred, hcurrent, outcome, houtcome, hnow, ?_, hkept "legacy" (by decide),
    hkept "up" (by decide), hkept "up-previous" (by decide)⟩
  rw [hadds.added, meaning?_of_resolve htarget]

end Switch

end Wayfinder
