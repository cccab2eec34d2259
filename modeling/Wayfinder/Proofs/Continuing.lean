import Wayfinder.Proofs.Breadcrumbs

/-!
A path goes on where another one ends. Main statement: when the answers to questions never change,
whether they are listings or failures, a path put behind a slash leads from where the path before it
led, and nowhere if that one led nowhere; and a child is left again by going up from it
(`walk_slash`).

Without the questions a step is a function of the place and the name (`next?`), so the steps of a
path are one fold that can fail, and the law is that of a fold over two lists put together. The one
path that the law is not about is an absolute one without steps: in the hierarchy of a disconnected
space the first step of what comes behind it is then the name of the space.
-/

set_option autoImplicit false
set_option relaxedAutoImplicit false

namespace Wayfinder

variable {σ : Type}

/-- What a place answers never changes: its rows, or the failure to list them. -/
def Api.Unchanging (api : Api (StateM σ)) (answers : Node → Except Failure (List Item)) : Prop :=
  ∀ node s, (reply (node.children api) s).1 = answers node

namespace Node

variable {api : Api (StateM σ)} {answers : Node → Except Failure (List Item)}

/-! ### Steps without questions -/

/-- The place that a name leads to, given the answers. -/
def next? (answers : Node → Except Failure (List Item)) (node : Node) (name : String) :
    Option Node :=
  if name = ".." then node.parent?
  else (answers node).toOption.bind fun rows ↦ childNamed? name (node.listing rows)

/-- The place that a path leads to, given the answers. -/
def arrive? (answers : Node → Except Failure (List Item)) (start : Node) (path : String) :
    Option Node :=
  if isAbsolute path then
    (fromTop path start (steps path)).toOption.bind fun begun ↦
      begun.2.foldlM (next? answers) begun.1
  else (steps path).foldlM (next? answers) start

theorem toOption_step (h : api.Unchanging answers) (path : String) (node : Node) (name : String)
    (s : σ) : (reply (node.step api path name) s).1.toOption = node.next? answers name := by
  rw [step, next?]
  by_cases hup : name = ".."
  · rw [if_pos hup, if_pos hup]
    cases node.parent? with
    | none => rfl
    | some parent => rfl
  · rw [if_neg hup, if_neg hup, items, reply_bind, reply_bind, ← h node s]
    rcases reply (node.children api) s with ⟨failure | rows, next⟩
    · rfl
    · simp only [Except.toOption, Option.bind_some, reply_pure]
      cases childNamed? name (node.listing rows) with
      | none => rfl
      | some child => rfl

theorem toOption_follow (h : api.Unchanging answers) (path : String) (node : Node)
    (names : List String) (s : σ) :
    (reply (node.follow api path names) s).1.toOption = names.foldlM (next? answers) node := by
  induction names generalizing node s with
  | nil => rfl
  | cons name rest ih =>
    rw [follow, reply_bind, List.foldlM_cons, ← toOption_step h path node name s]
    rcases reply (node.step api path name) s with ⟨failure | next, middle⟩
    · rfl
    · exact ih next middle

theorem toOption_walk (h : api.Unchanging answers) (start : Node) (path : String) (s : σ) :
    (reply (start.walk api path) s).1.toOption = start.arrive? answers path := by
  rw [walk, arrive?]
  by_cases habsolute : isAbsolute path = true
  · rw [if_pos habsolute, if_pos habsolute]
    cases fromTop path start (steps path) with
    | error failure => rfl
    | ok begun => exact toOption_follow h path begun.1 begun.2 s
  · rw [if_neg habsolute, if_neg habsolute]
    exact toOption_follow h path start (steps path) s

theorem reply_walk_ok_iff (h : api.Unchanging answers) {start node : Node} {path : String}
    (s : σ) :
    (reply (start.walk api path) s).1 = .ok node ↔ start.arrive? answers path = some node := by
  rw [← toOption_walk h start path s, toOption_eq_some_iff]

/-! ### Two paths, one behind the other -/

theorem isAbsolute_slash {path : String} (hpath : path ≠ "") (more : String) :
    isAbsolute (path ++ "/" ++ more) = isAbsolute path := by
  unfold isAbsolute
  rw [String.append_assoc, String.toList_append]
  cases hlist : path.toList with
  | nil => exact absurd (String.toList_eq_nil_iff.1 hlist) hpath
  | cons c rest => rfl

theorem isAbsolute_of_isChildStep {name : String} (h : IsChildStep name) :
    isAbsolute name = false := by
  rw [isAbsolute, beq_eq_false_iff_ne]
  exact fun hhead ↦ h.whole (List.mem_of_head? hhead)

/-- Behind its first step a path from the top goes on with whatever comes after it. -/
theorem fromTop_append (path other : String) (start : Node) {names : List String}
    (hnames : names ≠ []) (more : List String) :
    (fromTop other start (names ++ more)).toOption =
      (fromTop path start names).toOption.map fun begun ↦ (begun.1, begun.2 ++ more) := by
  obtain ⟨name, rest, rfl⟩ := List.exists_cons_of_ne_nil hnames
  rw [List.cons_append]
  unfold fromTop
  cases start.top with
  | space space =>
    simp only
    by_cases hspace : name = space.name
    · rw [if_pos hspace, if_pos hspace]
      rfl
    · rw [if_neg hspace, if_neg hspace]
      by_cases hup : name = ".."
      · rw [if_pos hup, if_pos hup]
        rfl
      · rw [if_neg hup, if_neg hup]
        rfl
  | root => rfl
  | organization organization => rfl
  | group group => rfl
  | controlPlane controlPlane => rfl

theorem arrive?_slash (answers : Node → Except Failure (List Item)) (start : Node)
    {path more : String} (hpath : path ≠ "") (hsteps : isAbsolute path = true → steps path ≠ [])
    (hmore : isAbsolute more = false) :
    start.arrive? answers (path ++ "/" ++ more) =
      (start.arrive? answers path).bind fun middle ↦ middle.arrive? answers more := by
  have hbehind : ∀ middle : Node,
      middle.arrive? answers more = (steps more).foldlM (next? answers) middle := fun middle ↦ by
    rw [arrive?, hmore]
    rfl
  simp only [hbehind]
  rw [arrive?, arrive?, isAbsolute_slash hpath, steps_slash]
  by_cases habsolute : isAbsolute path = true
  · rw [if_pos habsolute, if_pos habsolute,
      fromTop_append path (path ++ "/" ++ more) start (hsteps habsolute)]
    cases fromTop path start (steps path) with
    | error failure => rfl
    | ok begun => exact List.foldlM_append
  · rw [if_neg habsolute, if_neg habsolute]
    exact List.foldlM_append

/-! ### Down and up again -/

/-- A listed space knows the organization that it is listed for. -/
def SpacesCarry (answers : Node → Except Failure (List Item)) : Prop :=
  ∀ organization rows, answers (.organization organization) = .ok rows →
    ∀ name space, Item.child name (.space space) ∈ rows → space.organization = some organization

/-- Above a child is the place that lists it. -/
theorem IsChild.parent? {node child : Node} {name : String} (h : node.IsChild name child)
    (hcarries : ∀ organization space, node = .organization organization →
      child = .space space → space.organization = some organization) :
    child.parent? = some node := by
  cases h with
  | organization organization => rfl
  | space organization space =>
    rw [Node.parent?, hcarries organization space rfl rfl]
    rfl
  | group space name => rfl
  | controlPlane group name => rfl

/-- Entering a child leads to a listed child of that name. -/
theorem exists_next? (h : api.Unchanging answers) (asked : σ) {node child : Node}
    {rows : List Item} {name : String} (hrows : answers node = .ok rows) (hname : name ≠ "..")
    (hrow : Item.child name child ∈ rows) :
    ∃ below, Item.child name below ∈ rows ∧ node.IsChild name below ∧
      node.next? answers name = some below := by
  obtain ⟨row, hmem, htext, hfound⟩ := exists_row_named node hrow
  have hchildren : reply (node.children api) asked =
      (.ok rows, (reply (node.children api) asked).2) := Prod.ext ((h node asked).trans hrows) rfl
  obtain ⟨text, below, rfl, hchild⟩ := exists_child_of_children hchildren hmem
  cases htext
  refine ⟨below, hmem, hchild, ?_⟩
  rw [next?, if_neg hname, hrows]
  exact hfound

/-- Going up from a child of a place leads back to the place. -/
theorem foldlM_down_up (h : api.Unchanging answers) (hcarry : SpacesCarry answers) (asked : σ)
    {node child : Node} {rows : List Item} {name : String} (hrows : answers node = .ok rows)
    (hname : name ≠ "..") (hrow : Item.child name child ∈ rows) :
    [name, ".."].foldlM (next? answers) node = some node := by
  obtain ⟨below, hmem, hchild, hdown⟩ := exists_next? h asked hrows hname hrow
  have hup : below.next? answers ".." = some node := by
    refine (if_pos rfl).trans (hchild.parent? ?_)
    rintro organization space rfl rfl
    exact hcarry organization rows hrows name space hmem
  rw [List.foldlM_cons, hdown]
  change (below.next? answers "..").bind (fun last ↦ [].foldlM (next? answers) last) = some node
  rw [hup]
  rfl

/-- A path that goes on behind a slash leads to a place exactly when its first part leads somewhere
and the rest leads from there to that place. With a child of the place and a step up behind it, a
path leads where it leads without them. The path before the slash is not empty, and has a step
unless it begins at the place it is walked from. -/
theorem walk_slash (api : Api (StateM σ)) (answers : Node → Except Failure (List Item))
    (start : Node) (path : String) (hanswers : api.Unchanging answers) (hpath : path ≠ "")
    (hsteps : isAbsolute path = true → steps path ≠ []) :
    (∀ more, isAbsolute more = false → ∀ node s t u,
      (reply (start.walk api (path ++ "/" ++ more)) s).1 = .ok node ↔
        ∃ middle, (reply (start.walk api path) t).1 = .ok middle ∧
          (reply (middle.walk api more) u).1 = .ok node) ∧
    (SpacesCarry answers → ∀ middle name rows child s t,
      (reply (start.walk api path) s).1 = .ok middle → IsChildStep name →
      answers middle = .ok rows → Item.child name child ∈ rows →
      (reply (start.walk api (path ++ "/" ++ name ++ "/..")) t).1 = .ok middle) := by
  constructor
  · intro more hmore node s t u
    simp only [reply_walk_ok_iff hanswers]
    rw [arrive?_slash answers start hpath hsteps hmore, Option.bind_eq_some_iff]
  · intro hcarry middle name rows child s t hmiddle hname hrows hrow
    have hpaths : path ++ "/" ++ name ++ "/.." = path ++ "/" ++ (name ++ "/" ++ "..") := by
      simp only [String.append_assoc]
      rfl
    have hrelative : isAbsolute (name ++ "/" ++ "..") = false := by
      rw [isAbsolute_slash hname.nonempty, isAbsolute_of_isChildStep hname]
    have hnames : steps (name ++ "/" ++ "..") = [name, ".."] := by
      rw [steps_slash, steps_of_isChildStep hname]
      rfl
    rw [reply_walk_ok_iff hanswers] at hmiddle ⊢
    rw [hpaths, arrive?_slash answers start hpath hsteps hrelative, hmiddle, Option.bind_some,
      arrive?, hrelative, hnames]
    exact foldlM_down_up hanswers hcarry s hrows hname.ne_up hrow

/-- What the places of `charted` answer. -/
def chartedAnswers (node : Node) : Except Failure (List Item) :=
  (reply (node.children charted) 0).1

theorem unchanging_charted : charted.Unchanging chartedAnswers := by
  intro node s
  cases node with
  | space space =>
    simp only [chartedAnswers, children, charted]
    by_cases hname : space.name = "us"
    · rw [if_pos hname]
      rfl
    · rw [if_neg hname]
      rfl
  | root => rfl
  | organization organization => rfl
  | group group => rfl
  | controlPlane controlPlane => rfl

theorem spacesCarry_charted : SpacesCarry chartedAnswers := by
  rintro organization rows ⟨⟩ name space hrow
  rcases List.mem_cons.1 hrow with heu | hus
  · cases heu
    rfl
  · cases List.mem_singleton.1 hus
    rfl

theorem reply_walk_charted {node child : Node} {rows : List Item} {name : String}
    (hname : IsChildStep name) (hrows : chartedAnswers node = .ok rows)
    (hdistinct : (rows.map Item.text).Nodup) (hrow : Item.child name child ∈ rows) (s : Nat) :
    (reply (node.walk charted name) s).1 = .ok child := by
  rw [reply_walk_ok_iff unchanging_charted, arrive?, isAbsolute_of_isChildStep hname,
    steps_of_isChildStep hname, List.foldlM_cons, next?, if_neg hname.ne_up, hrows]
  change (childNamed? name (node.listing rows)).bind some = some child
  rw [childNamed?_listing hdistinct hrow]
  rfl

/-- From a group of a space that can not be listed to another space of the organization, and from
one group of a disconnected space to another. -/
theorem walk_slash_charted :
    let acme : Organization := { name := "acme" }
    let abroad : Node := .group { space := spaceNamed (some acme) "us", name := "ops" }
    let lone := spaceNamed none "lone"
    let aside : Node := .group { space := lone, name := "ops" }
    charted.Unchanging chartedAnswers ∧ SpacesCarry chartedAnswers ∧
    (steps "/lone" ≠ [] ∧
      (reply (abroad.walk charted ("../.." ++ "/" ++ "eu")) 0).1 =
        .ok (.space (spaceNamed (some acme) "eu")) ∧
      (reply (abroad.walk charted ("../.." ++ "/" ++ "us" ++ "/..")) 0).1 =
        .ok (.organization acme)) ∧
    (reply (aside.walk charted ("/lone" ++ "/" ++ "team")) 0).1 =
        .ok (.group { space := lone, name := "team" }) ∧
      (reply (aside.walk charted ("/lone" ++ "/" ++ "team" ++ "/..")) 0).1 = .ok (.space lone) := by
  intro acme abroad lone aside
  have hup := walk_slash charted chartedAnswers abroad "../.." unchanging_charted (by decide)
    (by decide)
  have htop := walk_slash charted chartedAnswers aside "/lone" unchanging_charted (by decide)
    (by decide)
  have hacme : (reply (abroad.walk charted "../..") 0).1 = .ok (.organization acme) := by rfl
  have hlone : (reply (aside.walk charted "/lone") 0).1 = .ok (.space lone) := by rfl
  have heu : (reply ((Node.organization acme).walk charted "eu") 0).1 =
      .ok (.space (spaceNamed (some acme) "eu")) :=
    reply_walk_charted (by decide) rfl (by simp [Item.child, spaceNamed])
      (List.mem_cons_of_mem _ List.mem_cons_self) 0
  have hteam : (reply ((Node.space lone).walk charted "team") 0).1 =
      .ok (.group { space := lone, name := "team" }) :=
    reply_walk_charted (by decide) rfl (by simp [Item.child]) List.mem_cons_self 0
  refine ⟨unchanging_charted, spacesCarry_charted, ⟨by decide, ?_, ?_⟩, ?_, ?_⟩
  · exact (hup.1 "eu" (by decide) _ 0 0 0).2 ⟨_, hacme, heu⟩
  · exact hup.2 spacesCarry_charted _ "us" _ _ 0 0 hacme (by decide) rfl List.mem_cons_self
  · exact (htop.1 "team" (by decide) _ 0 0 0).2 ⟨_, hlone, hteam⟩
  · exact htop.2 spacesCarry_charted _ "team" _ _ 0 0 hlone (by decide) rfl List.mem_cons_self

end Node

end Wayfinder
