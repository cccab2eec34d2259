import Wayfinder.Switch.Merge
import Wayfinder.Proofs.Relabelling

/-!
What a context stands for, whatever the names of the entries it refers to. `Kubeconfig.meaning?` is
the body, cluster and user that a name resolves to; `Kubeconfig.view?` is finer and also sees which
of the two references leads nowhere. Main statements: the meaning of a name is the complete part of
its view (`meaning?_eq_bind`), and contexts with one meaning are the same target
(`sameTarget_of_meaning?`).
-/

set_option autoImplicit false
set_option relaxedAutoImplicit false

namespace Wayfinder

/-- A context without the names it refers to. -/
def Context.body (c : Context) : Context := { c with cluster := "", user := "" }

@[simp] theorem Context.body_refer (r : Reference) (f : String → String) (c : Context) :
    (c.refer r f).body = c.body := by
  cases r <;> rfl

/-- What a context stands for. -/
structure Meaning where
  body : Context
  cluster : Cluster
  user : Option User

/-- What can be seen of a context: a reference without an entry leads to `none`. -/
structure View where
  body : Context
  cluster : Option Cluster
  user : Option (Option User)

/-- The meaning of a context whose references all lead to entries. -/
def View.meaning? (v : View) : Option Meaning :=
  v.cluster.bind fun cluster ↦ v.user.map fun user ↦ ⟨v.body, cluster, user⟩

/-- The meaning of a context with the entries it refers to. -/
def Target.meaning (t : Target) : Meaning := ⟨t.context.body, t.cluster, t.user⟩

namespace Kubeconfig

variable {config : Kubeconfig} {name : String}

/-- What can be seen of the context of a name. -/
def view? (config : Kubeconfig) (name : String) : Option View :=
  (config.contexts.get? name).map fun c ↦
    ⟨c.body, config.clusters.get? c.cluster, (config.userOf c.user).toOption⟩

/-- What the context of a name stands for, when it resolves. -/
def meaning? (config : Kubeconfig) (name : String) : Option Meaning :=
  (config.resolve name).toOption.map Target.meaning

/-- The bodies of all contexts. -/
def bodies (config : Kubeconfig) : Multiset Context := config.contexts.values.map Context.body

/-- The second kubeconfig is like the first in all but its entries and its current context. -/
structure SameRest (before after : Kubeconfig) : Prop where
  apiVersion : after.apiVersion = before.apiVersion
  kind : after.kind = before.kind
  preferences : after.preferences = before.preferences
  extensions : after.extensions = before.extensions
  extra : after.extra = before.extra

theorem SameRest.refl (config : Kubeconfig) : SameRest config config := ⟨rfl, rfl, rfl, rfl, rfl⟩

theorem SameRest.trans {first middle last : Kubeconfig} (h : SameRest first middle)
    (h' : SameRest middle last) : SameRest first last where
  apiVersion := h'.apiVersion.trans h.apiVersion
  kind := h'.kind.trans h.kind
  preferences := h'.preferences.trans h.preferences
  extensions := h'.extensions.trans h.extensions
  extra := h'.extra.trans h.extra

theorem toOption_userOf (config : Kubeconfig) (name : String) :
    (config.userOf name).toOption =
      if name = "" then some none else (config.users.get? name).map some := by
  unfold userOf
  by_cases h : name = ""
  · simp [h, Except.toOption]
  · have hempty : name.isEmpty = false := by simpa using h
    rw [hempty, if_neg h]
    cases config.users.get? name <;> rfl

/-- A context of which a reference leads nowhere has a view and no meaning. -/
theorem meaning?_eq_bind (config : Kubeconfig) (name : String) :
    config.meaning? name = (config.view? name).bind View.meaning? := by
  unfold meaning? view? resolve View.meaning?
  cases config.contexts.get? name with
  | none => rfl
  | some c =>
    cases hcluster : config.clusters.get? c.cluster with
    | none => simp [hcluster, Except.toOption]
    | some cluster =>
      cases huser : config.userOf c.user <;>
        simp [hcluster, huser, Except.toOption, Target.meaning]

theorem meaning?_eq_some_iff {meaning : Meaning} :
    config.meaning? name = some meaning ↔ ∃ c, config.contexts.get? name = some c ∧
      config.clusters.get? c.cluster = some meaning.cluster ∧
      (config.userOf c.user).toOption = some meaning.user ∧ c.body = meaning.body := by
  rw [meaning?_eq_bind]
  unfold view? View.meaning?
  cases config.contexts.get? name with
  | none => simp
  | some c =>
    simp only [Option.map_some, Option.bind_some, Option.bind_eq_some_iff, Option.map_eq_some_iff,
      Option.some.injEq, exists_eq_left']
    constructor
    · rintro ⟨cluster, hcluster, user, huser, rfl⟩
      exact ⟨hcluster, huser, rfl⟩
    · rintro ⟨hcluster, huser, hbody⟩
      exact ⟨meaning.cluster, hcluster, meaning.user, huser, by rw [hbody]⟩

/-- A name has a meaning when it resolves. -/
theorem exists_meaning?_iff :
    (∃ meaning, config.meaning? name = some meaning) ↔
      ∃ target, config.resolve name = .ok target := by
  unfold meaning?
  cases config.resolve name <;> simp [Except.toOption]

theorem meaning?_of_resolve {target : Target} (h : config.resolve name = .ok target) :
    config.meaning? name = some target.meaning := by
  rw [meaning?, h]
  rfl

theorem contains_of_meaning? {meaning : Meaning} (h : config.meaning? name = some meaning) :
    config.contexts.contains name = true := by
  obtain ⟨c, hc, -⟩ := meaning?_eq_some_iff.1 h
  exact NameMap.contains_iff.2 ⟨c, hc⟩

end Kubeconfig

/-- Contexts with one meaning are the same target, whatever kubeconfigs they stand in. -/
theorem Switch.sameTarget_of_meaning? {a b : Kubeconfig} {nameInA nameInB : String}
    {meaning : Meaning} (ha : a.meaning? nameInA = some meaning)
    (hb : b.meaning? nameInB = some meaning) : sameTarget a nameInA b nameInB = true := by
  obtain ⟨x, hx⟩ := Kubeconfig.exists_meaning?_iff.1 ⟨_, ha⟩
  obtain ⟨y, hy⟩ := Kubeconfig.exists_meaning?_iff.1 ⟨_, hb⟩
  have hmeaning : x.meaning = y.meaning := by
    rw [Kubeconfig.meaning?_of_resolve hx] at ha
    rw [Kubeconfig.meaning?_of_resolve hy] at hb
    exact Option.some.inj (ha.trans hb.symm)
  obtain ⟨hbody, hcluster, huser⟩ := Meaning.mk.inj hmeaning
  have hbodies : x.context.body.same y.context.body = true := hbody ▸ x.context.body.same_refl
  have hclusters : x.cluster.same y.cluster = true := hcluster ▸ x.cluster.same_refl
  have husers : sameOption User.same x.user y.user = true :=
    huser ▸ sameOption_refl User.same_refl x.user
  simp only [sameTarget, hx, hy, hclusters, husers, Bool.and_true]
  exact hbodies

end Wayfinder
