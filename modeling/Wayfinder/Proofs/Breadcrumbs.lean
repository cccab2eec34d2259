import Wayfinder.Proofs.Browsing

/-!
Breadcrumbs are paths. Main statement: when a place is reached from the top of its hierarchy by
entering listed children, its breadcrumbs lead back to it from every start in that hierarchy,
however many slashes and steps that stay are put in between the names (`walk_breadcrumbs`).

The breadcrumbs of a child have one step more than those of the place that lists it
(`IsChild.steps_breadcrumbs`), and a walk takes the steps of a path one after the other
(`reply_follow_append`); so both are followed along the same chain of places.
-/

set_option autoImplicit false
set_option relaxedAutoImplicit false

namespace Wayfinder

/-! ### Spellings of a path -/

/-- Whether something can be put in between two parts of a path without cutting a name. -/
def BetweenNames (before after : String) : Prop :=
  (∃ start, before = start ++ "/") ∨ (∃ rest, after = "/" ++ rest) ∨ after = ""

/-- A path with slashes and steps that stay put in between its names. -/
inductive Spelling (path : String) : String → Prop
  | same : Spelling path path
  | put {before after extra : String} (spelling : Spelling path (before ++ after))
      (between : BetweenNames before after) (extra_eq : extra = "/" ∨ extra = "/./") :
      Spelling path (before ++ extra ++ after)

namespace Node

theorem steps_slash (before after : String) :
    steps (before ++ "/" ++ after) = steps before ++ steps after := by
  have hlist : (before ++ "/" ++ after).toList = before.toList ++ '/' :: after.toList := by
    simp [String.toList_append]
  rw [steps, Text.split, hlist, Text.pieces_append, List.map_append, List.filter_append]
  rfl

@[simp] theorem steps_empty : steps "" = [] := by decide

@[simp] theorem steps_root : steps "/" = [] := by decide

theorem steps_of_isStep {name : String} (h : IsStep name) : steps name = [name] := by
  have hpath : pathOf [name] = name := String.ofList_toList
  have hsteps : steps (pathOf [name]) = [name] :=
    steps_pathOf fun other hother ↦ List.mem_singleton.1 hother ▸ h
  rwa [hpath] at hsteps

theorem steps_of_isChildStep {name : String} (h : IsChildStep name) : steps name = [name] :=
  steps_of_isStep (Or.inr h)

theorem steps_append_of_between {before after : String} (h : BetweenNames before after) :
    steps (before ++ after) = steps before ++ steps after := by
  rcases h with ⟨start, rfl⟩ | ⟨rest, rfl⟩ | rfl
  · have hstart := steps_slash start ""
    rw [String.append_empty, steps_empty, List.append_nil] at hstart
    rw [steps_slash, hstart]
  · have hrest := steps_slash "" rest
    rw [String.empty_append, steps_empty, List.nil_append] at hrest
    rw [← String.append_assoc, steps_slash, hrest]
  · rw [String.append_empty, steps_empty, List.append_nil]

/-- What a spelling puts in makes no steps. -/
theorem steps_put {extra : String} (h : extra = "/" ∨ extra = "/./") (before after : String) :
    steps (before ++ extra ++ after) = steps before ++ steps after := by
  rcases h with rfl | rfl
  · exact steps_slash before after
  · have hsplit : before ++ "/./" ++ after = before ++ "/" ++ "." ++ "/" ++ after := by
      simp only [String.append_assoc]
      rfl
    have hstay : steps "." = [] := by decide
    rw [hsplit, steps_slash, steps_slash, hstay, List.append_nil]

theorem isAbsolute_put {before after extra : String} (hextra : extra = "/" ∨ extra = "/./")
    (h : isAbsolute (before ++ after) = true) : isAbsolute (before ++ extra ++ after) = true := by
  unfold isAbsolute at h ⊢
  rw [String.append_assoc, String.toList_append]
  rw [String.toList_append] at h
  cases hbefore : before.toList with
  | nil => rcases hextra with rfl | rfl <;> simp [String.toList_append]
  | cons c start => simpa [hbefore] using h

end Node

/-- Every spelling of a path has the steps of the path. -/
theorem Spelling.steps_eq {path other : String} (h : Spelling path other) :
    Node.steps other = Node.steps path := by
  induction h with
  | same => rfl
  | put spelling between extra_eq ih =>
    rw [Node.steps_put extra_eq, ← Node.steps_append_of_between between, ih]

theorem Spelling.isAbsolute {path other : String} (h : Spelling path other)
    (hpath : Node.isAbsolute path = true) : Node.isAbsolute other = true := by
  induction h with
  | same => exact hpath
  | put spelling between extra_eq ih => exact Node.isAbsolute_put extra_eq ih

namespace Node

variable {σ : Type} {api : Api (StateM σ)} {top node child start : Node} {name : String}

/-! ### Places on the way from the top -/

/-- A place that is come to from `top` by entering one child after the other: the listings on the
way never change, the names in each of them differ, the names entered can stand in a path, and a
listed space knows its organization. -/
inductive Reached (api : Api (StateM σ)) (top : Node) : Node → Prop
  | top : Reached api top top
  | enter {node child : Node} {name : String} {rows : List Item} (reached : Reached api top node)
      (lists : api.Lists node rows) (distinct : (rows.map Item.text).Nodup)
      (row : Item.child name child ∈ rows) (enterable : IsChildStep name)
      (carries : ∀ organization space, node = .organization organization →
        child = .space space → space.organization = some organization) :
      Reached api top child

/-- The top of a hierarchy is where all organizations are listed, or a disconnected space. -/
theorem top_cases (start : Node) :
    start.top = .root ∨ ∃ space, start.top = .space space ∧ space.organization = none := by
  have hspace : ∀ space : Space, (if space.isCloud then Node.root else .space space) = .root ∨
      ∃ other, (if space.isCloud then Node.root else .space space) = .space other ∧
        other.organization = none := by
    intro space
    cases horganization : space.organization with
    | none => exact Or.inr ⟨space, by simp [Space.isCloud, horganization], horganization⟩
    | some organization => exact Or.inl (by simp [Space.isCloud, horganization])
  cases start with
  | root => exact Or.inl rfl
  | organization o => exact Or.inl rfl
  | space space => exact hspace space
  | group g => exact hspace g.space
  | controlPlane c => exact hspace c.group.space

theorem isAbsolute_breadcrumbs (node : Node) : isAbsolute node.breadcrumbs = true := by
  have hspace : ∀ space : Space, ∃ rest, space.breadcrumbs = "/" ++ rest := by
    intro space
    unfold Space.breadcrumbs
    cases space.organization with
    | none => exact ⟨_, rfl⟩
    | some organization =>
      exact ⟨organization.name ++ "/" ++ space.name, by simp only [String.append_assoc]⟩
  have hslash : ∃ rest, node.breadcrumbs = "/" ++ rest := by
    cases node with
    | root => exact ⟨"", rfl⟩
    | organization o => exact ⟨o.name, rfl⟩
    | space space => exact hspace space
    | group g =>
      obtain ⟨rest, hrest⟩ := hspace g.space
      exact ⟨rest ++ "/" ++ g.name, by
        simp only [breadcrumbs, Group.breadcrumbs, hrest, String.append_assoc]⟩
    | controlPlane c =>
      obtain ⟨rest, hrest⟩ := hspace c.group.space
      exact ⟨rest ++ "/" ++ c.group.name ++ "/" ++ c.name, by
        simp only [breadcrumbs, ControlPlane.breadcrumbs, Group.breadcrumbs, hrest,
          String.append_assoc]⟩
  obtain ⟨rest, hrest⟩ := hslash
  simp [hrest, isAbsolute, String.toList_append]

/-- The breadcrumbs of a child are those of the place above it and its name. -/
theorem IsChild.steps_breadcrumbs (h : node.IsChild name child) (hname : IsChildStep name)
    (hcarries : ∀ organization space, node = .organization organization →
      child = .space space → space.organization = some organization) :
    steps child.breadcrumbs = steps node.breadcrumbs ++ [name] := by
  rw [← steps_of_isChildStep hname, ← steps_slash]
  cases h with
  | organization o =>
    have hroot := steps_slash "" ("/" ++ o.name)
    rw [String.empty_append, steps_empty, List.nil_append] at hroot
    simp only [breadcrumbs, String.append_assoc, hroot]
  | space o space =>
    simp only [breadcrumbs, Space.breadcrumbs, hcarries o space rfl rfl]
  | group space name => rfl
  | controlPlane g name => rfl

/-! ### Following the breadcrumbs -/

theorem reply_follow_append (path : String) (node : Node) (names more : List String) (s : σ) :
    reply (node.follow api path (names ++ more)) s =
      reply (node.follow api path names >>= fun next ↦ next.follow api path more) s := by
  induction names generalizing node s with
  | nil => rfl
  | cons name rest ih =>
    rw [List.cons_append, follow, follow, reply_bind, reply_bind, reply_bind]
    rcases reply (node.step api path name) s with ⟨failure | next, middle⟩
    · rfl
    · simp only
      rw [ih, reply_bind]

/-- The steps of the breadcrumbs behind those of the top lead from the top to the place. -/
theorem Reached.follow (h : Reached api top node) (asked : σ) : ∃ names,
    steps node.breadcrumbs = steps top.breadcrumbs ++ names ∧
      ∀ path s, ∃ next, reply (top.follow api path names) s = (.ok node, next) := by
  induction h with
  | top => exact ⟨[], (List.append_nil _).symm, fun path s ↦ ⟨s, rfl⟩⟩
  | @enter node child name rows reached lists distinct row enterable carries ih =>
    obtain ⟨names, hnames, hfollow⟩ := ih
    refine ⟨names ++ [name], ?_, fun path s ↦ ?_⟩
    · obtain ⟨_, _, hchild, hlisted⟩ := lists.exists_child asked row
      cases hchild
      rw [hlisted.steps_breadcrumbs enterable carries, hnames, List.append_assoc]
    · obtain ⟨middle, hmiddle⟩ := hfollow path s
      obtain ⟨next, hstep⟩ := reply_step_down lists distinct enterable.ne_up row path middle
      refine ⟨next, ?_⟩
      rw [reply_follow_append, reply_bind_of_ok _ hmiddle, Node.follow, reply_bind_of_ok _ hstep]
      rfl

/-- A path from the top begins there, and the steps that are left of it come after the breadcrumbs
of the top. -/
theorem fromTop_breadcrumbs (htop : start.top = top)
    (hname : ∀ space, top = .space space → IsChildStep space.name) (path : String)
    (names : List String) :
    fromTop path start (steps top.breadcrumbs ++ names) = .ok (top, names) := by
  subst htop
  rcases top_cases start with hroot | ⟨space, hspace, horganization⟩
  · rw [fromTop, hroot]
    rfl
  · have hbreadcrumbs : (Node.space space).breadcrumbs = "" ++ "/" ++ space.name := by
      simp only [breadcrumbs, Space.breadcrumbs, horganization, String.empty_append]
    have hsteps : steps (Node.space space).breadcrumbs = [space.name] := by
      rw [hbreadcrumbs, steps_slash, steps_empty, List.nil_append,
        steps_of_isChildStep (hname space hspace)]
    rw [fromTop, hspace, hsteps]
    simp

/-- A place that is reached from the top of a hierarchy is what its breadcrumbs lead to from every
start in that hierarchy, in every spelling. The top is where all organizations are listed, or a
disconnected space with a name that can stand in a path. -/
theorem walk_breadcrumbs (api : Api (StateM σ)) (top start node : Node) (path : String) (s : σ)
    (htop : start.top = top) (hname : ∀ space, top = .space space → IsChildStep space.name)
    (hreached : Reached api top node) (hspelling : Spelling node.breadcrumbs path) :
    (reply (start.walk api path) s).1 = .ok node := by
  obtain ⟨names, hnames, hfollow⟩ := hreached.follow s
  obtain ⟨next, hnext⟩ := hfollow path s
  have habsolute := hspelling.isAbsolute node.isAbsolute_breadcrumbs
  rw [walk, if_pos habsolute, hspelling.steps_eq, hnames, fromTop_breadcrumbs htop hname]
  simp only
  rw [hnext]

/-- A space of a name. -/
def spaceNamed (organization : Option Organization) (name : String) : Space where
  organization
  name
  ingress := name ++ ".example"
  authorityData := none
  insecure := false
  user := {}

/-- An answer that is counted. -/
def counted {α : Type} (a : α) : ExceptT Failure (StateM Nat) α :=
  ExceptT.mk fun questions ↦ (.ok a, questions + 1)

/-- Places with several children each, of which one can not be listed. -/
def charted : Api (StateM Nat) where
  skipsVerification := false
  organizations := counted [{ name := "zeta" }, { name := "acme" }]
  spaces organization :=
    counted [spaceNamed (some organization) "us", spaceNamed (some organization) "eu"]
  groups space := if space.name = "us" then throw (.api 503 "") else counted ["team", "ops"]
  controlPlanes _ := counted ["No control planes found", "ctp"]
  ingress _ _ := throw (.api 404 "")

/-- A control plane in a space of those places. -/
def chartedPlane (space : Space) : Node :=
  .controlPlane { group := { space, name := "team" }, name := "ctp" }

theorem reached_chartedPlane {space : Space} (h : Reached charted top (.space space))
    (hname : space.name ≠ "us") : Reached charted top (chartedPlane space) := by
  have hgroups : charted.Lists (.space space)
      (["team", "ops"].map fun name ↦ .child name (.group { space, name })) := fun s ↦ by
    simp only [children, charted, if_neg hname]
    rfl
  have hteam : Reached charted top (.group { space, name := "team" }) :=
    .enter h hgroups (by simp [Item.child]) List.mem_cons_self (by decide) (by rintro _ _ _ ⟨⟩)
  have hplanes : charted.Lists (.group { space, name := "team" })
      (["No control planes found", "ctp"].map fun name ↦
        .child name (.controlPlane { group := { space, name := "team" }, name })) := fun s ↦ rfl
  exact .enter hteam hplanes (by simp [Item.child]) (List.mem_cons_of_mem _ List.mem_cons_self)
    (by decide) (by rintro _ _ _ ⟨⟩)

theorem reached_chartedSpace :
    Reached charted .root (.space (spaceNamed (some { name := "acme" }) "eu")) := by
  have hroot : charted.Lists .root ([{ name := "zeta" }, { name := "acme" }].map
      fun o ↦ .child o.name (.organization o)) := fun s ↦ rfl
  have horganization : Reached charted .root (.organization { name := "acme" }) :=
    .enter .top hroot (by simp [Item.child]) (List.mem_cons_of_mem _ List.mem_cons_self) (by decide)
      (by rintro _ _ ⟨⟩)
  have hspaces : charted.Lists (.organization { name := "acme" })
      (["us", "eu"].map fun name ↦ .child name
        (.space (spaceNamed (some { name := "acme" }) name))) := fun s ↦ rfl
  refine .enter horganization hspaces (by simp [Item.child])
    (List.mem_cons_of_mem _ List.mem_cons_self) (by decide) ?_
  rintro _ _ ⟨⟩ ⟨⟩
  rfl

/-- From a group of another space to a control plane of an organization, and from one group of a
disconnected space to a control plane in another. -/
theorem walk_breadcrumbs_charted :
    let acme : Organization := { name := "acme" }
    let cloud := spaceNamed (some acme) "eu"
    let abroad : Node := .group { space := spaceNamed (some acme) "us", name := "ops" }
    let lone := spaceNamed none "lone"
    let aside : Node := .group { space := lone, name := "ops" }
    (abroad.top = .root ∧ Reached charted .root (chartedPlane cloud) ∧
      Spelling (chartedPlane cloud).breadcrumbs "//acme/.//eu/team/ctp/" ∧
      (reply (abroad.walk charted "//acme/.//eu/team/ctp/") 0).1 = .ok (chartedPlane cloud)) ∧
    aside.top = .space lone ∧ IsChildStep lone.name ∧
      Reached charted (.space lone) (chartedPlane lone) ∧
      Spelling (chartedPlane lone).breadcrumbs "/lone/team/ctp" ∧
      (reply (aside.walk charted "/lone/team/ctp") 0).1 = .ok (chartedPlane lone) := by
  intro acme cloud abroad lone aside
  have hcloud : Reached charted .root (chartedPlane cloud) :=
    reached_chartedPlane reached_chartedSpace (by decide)
  have hlone : Reached charted (.space lone) (chartedPlane lone) :=
    reached_chartedPlane .top (by decide)
  have hname : ∀ space, Node.space lone = .space space → IsChildStep space.name := by
    rintro _ ⟨⟩
    decide
  have hspelling : Spelling (chartedPlane cloud).breadcrumbs "//acme/.//eu/team/ctp/" := by
    have hcrumbs : (chartedPlane cloud).breadcrumbs = "" ++ "/acme/eu/team/ctp" := by decide
    have hfirst : Spelling (chartedPlane cloud).breadcrumbs ("" ++ "/" ++ "/acme/eu/team/ctp") :=
      .put (hcrumbs ▸ .same) (Or.inr (Or.inl ⟨"acme/eu/team/ctp", by decide⟩)) (Or.inl rfl)
    have hsecond : Spelling (chartedPlane cloud).breadcrumbs
        ("//acme" ++ "/./" ++ "/eu/team/ctp") :=
      .put hfirst (Or.inr (Or.inl ⟨"eu/team/ctp", by decide⟩)) (Or.inr rfl)
    have hthird : Spelling (chartedPlane cloud).breadcrumbs
        ("//acme/.//eu/team/ctp" ++ "/" ++ "") :=
      .put hsecond (Or.inr (Or.inr rfl)) (Or.inl rfl)
    exact hthird
  have hplain : Spelling (chartedPlane lone).breadcrumbs "/lone/team/ctp" := .same
  exact ⟨⟨rfl, hcloud, hspelling, walk_breadcrumbs charted .root abroad (chartedPlane cloud) _ 0 rfl
    (by rintro _ ⟨⟩) hcloud hspelling⟩, rfl, by decide, hlone, hplain,
    walk_breadcrumbs charted (.space lone) aside (chartedPlane lone) _ 0 rfl hname hlone hplain⟩

end Node

end Wayfinder
