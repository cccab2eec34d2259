import Wayfinder.Proofs.Breadcrumbs
import Wayfinder.Proofs.Returning

/-!
Going back to a derived place by its breadcrumbs. Main statement: from every place in a disconnected
space the breadcrumbs of a derived place lead to it exactly when the name of the space can be a step
of a path (`walk_derived_iff`). The name is what the host of the endpoint leaves without a scheme
and without slashes at the end, so a path behind the host is too much (`walk_derived_astray`).

The breadcrumbs begin with all steps of the name of the space (`Node.IsListed.steps_breadcrumbs`),
while a path from the top compares its first step with the whole name (`Node.exists_fromTop_error`);
the steps behind that are those of the group and the control plane, which are found by their names
(`Node.IsListed.follow`).
-/

set_option autoImplicit false
set_option relaxedAutoImplicit false

namespace Wayfinder

variable {σ : Type} {api : Api (StateM σ)} {node child start : Node} {space : Space} {name : String}

/-! ### Steps of names -/

theorem IsResourceName.isChildStep (h : IsResourceName name) : IsChildStep name := by
  obtain ⟨c, hc, -, hpoint⟩ := h.first
  refine ⟨h.ne_empty, fun hslash ↦ (keeps_of_mem_nameChars (h.chars _ hslash)).2.1 rfl, ?_, ?_⟩
  · rintro rfl
    exact hpoint (Option.some.inj hc).symm
  · rintro rfl
    exact hpoint (Option.some.inj hc).symm

namespace Node

theorem isStep_of_mem_steps {path : String} (h : name ∈ steps path) : IsStep name := by
  obtain ⟨hmem, hleads⟩ := List.mem_filter.1 h
  obtain ⟨piece, hpiece, rfl⟩ := List.mem_map.1 hmem
  have hwhole : '/' ∉ (String.ofList piece).toList := by
    rw [String.toList_ofList]
    exact Text.not_mem_of_mem_pieces hpiece
  rw [Bool.not_eq_true', Bool.or_eq_false_iff, beq_eq_false_iff_ne, beq_eq_false_iff_ne] at hleads
  by_cases hup : String.ofList piece = ".."
  · exact Or.inl hup
  · exact Or.inr ⟨hleads.1, hwhole, hleads.2, hup⟩

/-- The names of a place within its space. -/
def namesWithin : Node → List String
  | .group g => [g.name]
  | .controlPlane c => [c.group.name, c.name]
  | _ => []

theorem namesWithin_eq_nil_iff (hspace : node.space? = some space) :
    node.namesWithin = [] ↔ node = .space space := by
  cases node with
  | root => cases hspace
  | organization o => cases hspace
  | space s =>
    obtain rfl := Option.some.inj hspace
    simp [namesWithin]
  | group g => simp [namesWithin]
  | controlPlane c => simp [namesWithin]

theorem top_of_space? (hspace : node.space? = some space) (hlone : space.isCloud = false) :
    node.top = .space space := by
  cases node with
  | root => cases hspace
  | organization o => cases hspace
  | space s =>
    obtain rfl := Option.some.inj hspace
    exact if_neg (by simp [hlone])
  | group g =>
    obtain rfl := Option.some.inj hspace
    exact if_neg (by simp [hlone])
  | controlPlane c =>
    obtain rfl := Option.some.inj hspace
    exact if_neg (by simp [hlone])

theorem fromTop_of_isStep (htop : start.top = .space space) (hname : IsStep space.name)
    (path : String) (names : List String) :
    fromTop path start (steps space.name ++ names) = .ok (.space space, names) := by
  rw [fromTop, htop, steps_of_isStep hname]
  exact if_pos rfl

/-- No step of a path is a name that can not be one. -/
theorem exists_fromTop_error (htop : start.top = .space space) (hname : ¬ IsStep space.name)
    {names : List String} (hsteps : ∀ name ∈ names, IsStep name) (hne : names ≠ [])
    (path : String) : ∃ failure, fromTop path start names = .error failure := by
  obtain ⟨first, rest, rfl⟩ := List.exists_cons_of_ne_nil hne
  have hfirst : first ≠ space.name := by
    rintro rfl
    exact hname (hsteps _ List.mem_cons_self)
  rw [fromTop, htop]
  simp only [if_neg hfirst]
  by_cases hup : first = ".."
  · exact ⟨_, if_pos hup⟩
  · exact ⟨_, if_neg hup⟩

end Node

/-! ### Listed names -/

/-- A name of resources that is in the answer whenever names are asked for. -/
def IsListedBy (names : ExceptT Failure (StateM σ) (List String)) (name : String) : Prop :=
  IsResourceName name ∧ ∀ s, ∃ answer, (reply names s).1 = .ok answer ∧ name ∈ answer

namespace Node

/-- The names of the group and the control plane of a place are always listed. -/
def IsListed (api : Api (StateM σ)) : Node → Prop
  | .group g => IsListedBy (api.groups g.space) g.name
  | .controlPlane c =>
    IsListedBy (api.groups c.group.space) c.group.name ∧
      IsListedBy (api.controlPlanes c.group) c.name
  | _ => True

theorem IsListed.isStep (h : node.IsListed api) : ∀ name ∈ node.namesWithin, IsStep name := by
  cases node with
  | group g =>
    intro name hname
    obtain rfl := List.mem_singleton.1 hname
    exact Or.inr h.1.isChildStep
  | controlPlane c =>
    intro name hname
    obtain ⟨⟨hgroup, -⟩, hplane, -⟩ := h
    rcases List.mem_cons.1 hname with rfl | hname
    · exact Or.inr hgroup.isChildStep
    · obtain rfl := List.mem_singleton.1 hname
      exact Or.inr hplane.isChildStep
  | root => exact fun name hname ↦ by cases hname
  | organization o => exact fun name hname ↦ by cases hname
  | space s => exact fun name hname ↦ by cases hname

/-- The breadcrumbs of a place have the steps of the name of its space, and then its names within
the space. -/
theorem IsListed.steps_breadcrumbs (h : node.IsListed api) (hspace : node.space? = some space)
    (hlone : space.isCloud = false) :
    steps node.breadcrumbs = steps space.name ++ node.namesWithin := by
  have htop : steps space.breadcrumbs = steps space.name := by
    have hnone : space.organization = none := by
      rwa [Space.isCloud, Option.isSome_eq_false_iff, Option.isNone_iff_eq_none] at hlone
    have hslash := steps_slash "" space.name
    rw [String.empty_append, steps_empty, List.nil_append] at hslash
    simp only [Space.breadcrumbs, hnone, hslash]
  cases node with
  | root => cases hspace
  | organization o => cases hspace
  | space s =>
    obtain rfl := Option.some.inj hspace
    exact htop.trans (List.append_nil _).symm
  | group g =>
    obtain rfl := Option.some.inj hspace
    rw [breadcrumbs, Group.breadcrumbs, steps_slash, htop, steps_of_isChildStep h.1.isChildStep,
      namesWithin]
  | controlPlane c =>
    obtain rfl := Option.some.inj hspace
    rw [breadcrumbs, ControlPlane.breadcrumbs, Group.breadcrumbs, steps_slash, steps_slash, htop,
      steps_of_isChildStep h.1.1.isChildStep, steps_of_isChildStep h.2.1.isChildStep,
      List.append_assoc, namesWithin]
    rfl

/-- A listed name leads to the child that is made of it, also when it is listed more than once. -/
theorem reply_step_listed {names : ExceptT Failure (StateM σ) (List String)}
    (below : String → Node)
    (hchildren : node.children api = do
      let answer ← names
      pure (answer.map fun name ↦ Item.child name (below name)))
    (h : IsListedBy names name) (path : String) (s : σ) :
    ∃ next, reply (node.step api path name) s = (.ok (below name), next) := by
  obtain ⟨hname, hlisted⟩ := h
  obtain ⟨answer, hanswer, hmem⟩ := hlisted s
  have hasked : reply names s = (.ok answer, (reply names s).2) := Prod.ext hanswer rfl
  have hitems : reply (node.items api) s =
      (.ok (node.listing (answer.map fun name ↦ .child name (below name))), (reply names s).2) := by
    rw [items, hchildren, reply_bind, reply_bind_of_ok _ hasked]
    rfl
  obtain ⟨row, hrow, htext, hfound⟩ := exists_row_named node
    (List.mem_map_of_mem (f := fun name ↦ Item.child name (below name)) hmem)
  obtain ⟨other, -, rfl⟩ := List.mem_map.1 hrow
  obtain rfl : other = name := htext
  refine ⟨(reply names s).2, ?_⟩
  rw [step, if_neg hname.isChildStep.ne_up, reply_bind_of_ok _ hitems, hfound]
  rfl

/-- The names within a space lead from the space to the place. -/
theorem IsListed.follow (h : node.IsListed api) (hspace : node.space? = some space) (path : String)
    (s : σ) : (reply ((Node.space space).follow api path node.namesWithin) s).1 = .ok node := by
  have hgroup : ∀ (other : Space) (name : String) (s : σ), IsListedBy (api.groups other) name →
      ∃ next, reply ((Node.space other).step api path name) s =
        (.ok (.group { space := other, name }), next) :=
    fun other name s hname ↦
      reply_step_listed (fun name ↦ .group { space := other, name }) rfl hname path s
  cases node with
  | root => cases hspace
  | organization o => cases hspace
  | space s =>
    obtain rfl := Option.some.inj hspace
    rfl
  | group g =>
    obtain rfl := Option.some.inj hspace
    obtain ⟨next, hstep⟩ := hgroup g.space g.name s h
    rw [namesWithin, Node.follow, reply_bind_of_ok _ hstep]
    rfl
  | controlPlane c =>
    obtain rfl := Option.some.inj hspace
    obtain ⟨middle, hdown⟩ := hgroup c.group.space c.group.name s h.1
    obtain ⟨next, hstep⟩ : ∃ next, reply ((Node.group c.group).step api path c.name) middle =
        (.ok (.controlPlane c), next) :=
      reply_step_listed (fun name ↦ .controlPlane { group := c.group, name }) rfl h.2 path middle
    rw [namesWithin, Node.follow, reply_bind_of_ok _ hdown, Node.follow, reply_bind_of_ok _ hstep]
    rfl

/-- In a disconnected space the breadcrumbs of a listed place lead to it exactly when the name of
the space is a step, or when there are no steps at all on the way from the top to the space. -/
theorem IsListed.walk_iff (h : node.IsListed api) (hspace : node.space? = some space)
    (hlone : space.isCloud = false) (hstart : start.space? = some space) (s : σ) :
    (reply (start.walk api node.breadcrumbs) s).1 = .ok node ↔
      IsStep space.name ∨ (node = .space space ∧ steps space.name = []) := by
  have htop := top_of_space? hstart hlone
  rw [walk, if_pos node.isAbsolute_breadcrumbs, h.steps_breadcrumbs hspace hlone,
    ← namesWithin_eq_nil_iff hspace]
  by_cases hname : IsStep space.name
  · rw [fromTop_of_isStep htop hname]
    exact iff_of_true (h.follow hspace _ s) (Or.inl hname)
  · by_cases hnone : steps space.name ++ node.namesWithin = []
    · obtain ⟨hsteps, hwithin⟩ := List.append_eq_nil_iff.1 hnone
      have hbegun : fromTop node.breadcrumbs start (steps space.name ++ node.namesWithin) =
          .ok (.space space, node.namesWithin) := by
        rw [hnone, hwithin, fromTop, htop]
      rw [hbegun]
      exact iff_of_true (h.follow hspace _ s) (Or.inr ⟨hwithin, hsteps⟩)
    · have hall : ∀ name ∈ steps space.name ++ node.namesWithin, IsStep name := by
        intro name hmem
        rcases List.mem_append.1 hmem with hmem | hmem
        · exact isStep_of_mem_steps hmem
        · exact h.isStep name hmem
      obtain ⟨failure, herror⟩ := exists_fromTop_error htop hname hall hnone node.breadcrumbs
      rw [herror]
      refine iff_of_false (fun hreached ↦ by cases hreached) ?_
      rintro (hstep | ⟨hwithin, hsteps⟩)
      · exact hname hstep
      · exact hnone (List.append_eq_nil_iff.2 ⟨hsteps, hwithin⟩)

end Node

/-! ### Derived places -/

/-- A place that is derived in a disconnected space, and whose names are listed, is what its
breadcrumbs lead to, from the place itself and from every other one in that space, exactly when the
name of the space can be a step of a path; or when there is nothing but the space, and its name has
no steps. The name is the host that the endpoint makes known, without a scheme and without slashes
at the end. -/
theorem walk_derived_iff (api : Api (StateM σ)) (config : Kubeconfig) (node : Node) (space : Space)
    (s last : σ) (hderived : reply (derive api config) s = (.ok node, last))
    (hspace : node.space? = some space) (hlone : space.isCloud = false)
    (hlisted : node.IsListed api) :
    (∃ target path ingress, config.resolveCurrent = .ok target ∧
      ServerPath.parse target.cluster.server = .ok path ∧
      (reply (api.ingress { target.cluster with server := path.base } target.user) s).1 =
        .ok ingress ∧
      space.name = dropSlashes (dropScheme ingress.host)) ∧
    ∀ start : Node, start.space? = some space → ∀ t,
      (reply (start.walk api node.breadcrumbs) t).1 = .ok node ↔
        IsStep space.name ∨ (node = .space space ∧ Node.steps space.name = []) := by
  obtain ⟨target, path, htarget, hpath, hderives⟩ := derives_of_reply hderived
  refine ⟨?_, fun start hstart t ↦ hlisted.walk_iff hspace hlone hstart t⟩
  rcases hderives.space_cases hspace with ⟨ingress, hanswer, rfl⟩ |
    ⟨failure, organization, name, hanswer, rfl⟩
  · exact ⟨target, path, ingress, htarget, hpath, hanswer, rfl⟩
  · cases hlone

section Hosts

open Switch.Committer

/-- The target that leads to a group of a space. -/
def groupTarget (server : String) : Target where
  name := "p"
  context := { cluster := "p", user := "p", namespaceName := some "g" }
  cluster := { server }
  user := some {}

theorem resolveCurrent_single_group (server : String) :
    (Kubeconfig.single "p" { server } {} (some "g")).resolveCurrent = .ok (groupTarget server) := by
  have hname : "p" ≠ "" := by decide
  exact Kubeconfig.resolveCurrent_single hname _ _ _

/-- What is derived for the group, at an endpoint that makes itself known by a host. -/
theorem reply_derive_group {server host : String} {path : ServerPath}
    (hpath : ServerPath.parse server = .ok path) (hgroup : path.group = none)
    (hplane : path.controlPlane = none) :
    reply (derive (hailing host) (.single "p" { server } {} (some "g"))) none =
      (.ok (.group { space := lone host, name := "g" }), none) := by
  have hanswer : reply ((hailing host).ingress { server := path.base } (some {})) none =
      (.ok { host, authorityData := none }, none) := rfl
  rw [reply_derive_of_ok (resolveCurrent_single_group server) hpath hanswer, placeWithin, hgroup,
    hplane]
  rfl

/-- A host with a scheme and a port, from a control plane back to its group. -/
theorem walk_derived_iff_port :
    let host := "https://h:8080/"
    let config := Kubeconfig.single "p" { server := "https://h:8080" } {} (some "g")
    let team : Node := .group { space := lone host, name := "g" }
    reply (derive (hailing host) config) none = (.ok team, none) ∧
      team.space? = some (lone host) ∧ (lone host).isCloud = false ∧ team.IsListed (hailing host) ∧
      (plane host).space? = some (lone host) ∧ team.breadcrumbs = "/h:8080/g" ∧
      (reply ((plane host).walk (hailing host) team.breadcrumbs) none).1 = .ok team := by
  intro host config team
  have hpath : ServerPath.parse "https://h:8080" =
      .ok { base := "https://h:8080", group := none, controlPlane := none } := rfl
  have hderived : reply (derive (hailing host) config) none = (.ok team, none) :=
    reply_derive_group hpath rfl rfl
  have hlisted : team.IsListed (hailing host) :=
    ⟨by decide, fun s ↦ ⟨["g"], rfl, List.mem_singleton_self _⟩⟩
  have hstep : IsStep (lone host).name := Or.inr (by decide)
  have hwalk := (walk_derived_iff (hailing host) config team (lone host) none none hderived rfl rfl
    hlisted).2 (plane host) rfl none
  exact ⟨hderived, rfl, rfl, hlisted, rfl, by decide, hwalk.2 (Or.inl hstep)⟩

/-- A host with a path: the breadcrumbs of the place lead nowhere, not even from there. -/
theorem walk_derived_astray :
    let host := "h/x"
    let config := Kubeconfig.single "p" { server := "https://h/x" } {} (some "g")
    let team : Node := .group { space := lone host, name := "g" }
    reply (derive (hailing host) config) none = (.ok team, none) ∧
      team.space? = some (lone host) ∧ (lone host).isCloud = false ∧ team.IsListed (hailing host) ∧
      team.breadcrumbs = "/h/x/g" ∧
      (reply (team.walk (hailing host) team.breadcrumbs) none).1 =
        .error (Node.astray (Text.quoted "h" ++ " not found in /") "/h/x/g") := by
  intro host config team
  have hpath : ServerPath.parse "https://h/x" =
      .ok { base := "https://h/x", group := none, controlPlane := none } := rfl
  have hlisted : team.IsListed (hailing host) :=
    ⟨by decide, fun s ↦ ⟨["g"], rfl, List.mem_singleton_self _⟩⟩
  have hcrumbs : team.breadcrumbs = "/h/x/g" := by decide
  have hsteps : Node.steps "/h/x/g" = ["h", "x", "g"] := by decide
  have hother : "h" ≠ (lone host).name := by decide
  have hdown : "h" ≠ ".." := by decide
  have htop : team.top = .space (lone host) := rfl
  have hbegun : Node.fromTop "/h/x/g" team ["h", "x", "g"] =
      .error (Node.astray (Text.quoted "h" ++ " not found in /") "/h/x/g") := by
    rw [Node.fromTop, htop]
    exact (if_neg hother).trans (if_neg hdown)
  refine ⟨reply_derive_group hpath rfl rfl, rfl, rfl, hlisted, hcrumbs, ?_⟩
  rw [hcrumbs, Node.walk, if_pos (by decide), hsteps, hbegun]
  rfl

end Hosts

end Wayfinder
