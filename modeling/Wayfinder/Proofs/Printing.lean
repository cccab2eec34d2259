import Wayfinder.Command
import Wayfinder.Proofs.Asking
import Wayfinder.Proofs.Working

/-!
A command that prints a kubeconfig instead of saving it. Main statement: it leaves the files as they
are, whatever it comes to; its output is empty when it fails, and otherwise the text of the
kubeconfig of the place that its path leads to (`run_prints`). Work that leaves the desk alone is
put together by rules (`Rests.bind`), so that each part of the command is looked at once.
-/

set_option autoImplicit false
set_option relaxedAutoImplicit false

namespace Wayfinder

namespace Files.AtDesk

variable {σ α β : Type}

theorem result_bind_eq_ok_iff {x : AtDesk (StateM σ) α} {f : α → AtDesk (StateM σ) β}
    {s next : Desk × σ} {b : β} :
    result (x >>= f) s = (.ok b, next) ↔
      ∃ a middle, result x s = (.ok a, middle) ∧ result (f a) middle = (.ok b, next) := by
  rw [result_bind]
  rcases result x s with ⟨failure | a, middle⟩
  · simp
  · constructor
    · exact fun h ↦ ⟨a, middle, rfl, h⟩
    · rintro ⟨_, _, ⟨⟩, h⟩
      exact h

/-- Work after which the files are as they were, with no step taken and no warning given. -/
def Rests (x : AtDesk (StateM σ) α) : Prop := ∀ s, (result x s).2.1 = s.1

theorem rests_throw (failure : Failure) : Rests (throw failure : AtDesk (StateM σ) α) := fun _ ↦ rfl

theorem rests_disk : Rests (disk : AtDesk (StateM σ) Disk) := fun _ ↦ rfl

theorem rests_ofExcept (r : Except Failure α) : Rests (ofExcept r : AtDesk (StateM σ) α) :=
  fun _ ↦ rfl

theorem rests_elsewhere (x : ExceptT Failure (StateM σ) α) : Rests (elsewhere x) := fun _ ↦ rfl

theorem Rests.bind {x : AtDesk (StateM σ) α} {f : α → AtDesk (StateM σ) β} (hx : Rests x)
    (hf : ∀ a, Rests (f a)) : Rests (x >>= f) := by
  intro s
  have hfirst := hx s
  rw [result_bind]
  rcases hresult : result x s with ⟨failure | a, next⟩
  · rw [hresult] at hfirst
    exact hfirst
  · rw [hresult] at hfirst
    exact (hf a next).trans hfirst

end Files.AtDesk

theorem Node.exists_kubeconfig {node : Node} (h : node.isAcceptable = true) (name : String) :
    ∃ cluster user namespaceName,
      node.kubeconfig? name = some (.single name cluster user namespaceName) := by
  cases node with
  | root => cases h
  | organization o => cases h
  | space s => exact ⟨_, _, _, rfl⟩
  | group g => exact ⟨_, _, _, rfl⟩
  | controlPlane c => exact ⟨_, _, _, rfl⟩

namespace Command

open CommandLine Files AtDesk

variable {σ : Type} {outside : Remote.Outside (StateM σ)} {env : String → Option String}
  {i : Invocation} {s : Desk × σ}

/-! ### The files -/

theorem rests_place (config : Kubeconfig) : Rests (place outside i config) :=
  rests_disk.bind fun _ ↦ rests_elsewhere _

theorem rests_destination (start : Node) : Rests (destination outside i start) := by
  unfold destination
  cases i.path with
  | none => exact rests_throw _
  | some path => exact rests_disk.bind fun _ ↦ rests_elsewhere _

theorem rests_load (store : Store) :
    Rests (store.loadAtDesk : AtDesk (StateM σ) Kubeconfig) :=
  rests_disk.bind fun _ ↦ rests_ofExcept _

theorem rests_go (h : i.toOutput = true) : Rests (go outside env i) := by
  refine (rests_load _).bind fun config ↦ (rests_place config).bind fun start ↦
    (rests_destination start).bind fun node ↦ ?_
  rw [if_pos h]
  exact rests_ofExcept _

theorem rests_back (h : i.toOutput = true) : Rests (back outside env i) := by
  rw [back, if_pos h]
  exact rests_throw _

theorem rests_run (h : i.toOutput = true) : Rests (run outside env i) := by
  unfold run
  split
  · exact rests_back h
  · exact rests_go h

/-! ### The output -/

/-- What is said about a place that became the current target. -/
def switched (i : Invocation) (node : Node) : String :=
  "Kubeconfig context " ++ Text.quoted i.context ++ " switched to: " ++ node.breadcrumbs

theorem print_of_config {node : Node} {config : Kubeconfig} (hacceptable : node.isAcceptable = true)
    (hconfig : node.kubeconfig? i.context = some config) :
    print i node = .ok { output := config.render, errors := report i node (switched i node) } := by
  have haccept : (node.accept (Switch.outlet i.context)).run.run none =
      (.ok (switched i node), some config.render) := by
    have hname : (Switch.outlet i.context).name = i.context := rfl
    rw [Node.accept, hname, hacceptable, if_pos rfl, hconfig]
    rfl
  rw [print, haccept]
  rfl

/-- Only a place that can be accepted is printed, as its kubeconfig. -/
theorem print_eq_ok_iff {node : Node} {printed : Printed} :
    print i node = .ok printed ↔ node.isAcceptable = true ∧
      ∃ config, node.kubeconfig? i.context = some config ∧
        printed = { output := config.render, errors := report i node (switched i node) } := by
  constructor
  · intro hprint
    cases hacceptable : node.isAcceptable with
    | false =>
      rw [print, Node.accept, hacceptable, if_neg Bool.false_ne_true] at hprint
      cases hprint
    | true =>
      obtain ⟨cluster, user, namespaceName, hconfig⟩ :=
        Node.exists_kubeconfig hacceptable i.context
      rw [print_of_config hacceptable hconfig] at hprint
      exact ⟨rfl, _, hconfig, (Except.ok.inj hprint).symm⟩
  · rintro ⟨hacceptable, config, hconfig, rfl⟩
    exact print_of_config hacceptable hconfig

/-- A path leads to a place, from the place to which the current context of the kubeconfig leads. -/
def Leads (outside : Remote.Outside (StateM σ)) (env : String → Option String) (i : Invocation)
    (path : String) (s : Desk × σ) (node : Node) : Prop :=
  ∃ config start middle last, (storeOf i env).load s.1.disk = .ok config ∧
    reply (derive (sourceOf outside s.1.disk i) config) s.2 = (.ok start, middle) ∧
    reply (start.walk (sourceOf outside s.1.disk i) path) middle = (.ok node, last)

theorem result_load_eq_ok_iff {store : Store} {config : Kubeconfig} {next : Desk × σ} :
    result (store.loadAtDesk : AtDesk (StateM σ) Kubeconfig) s = (.ok config, next) ↔
      store.load s.1.disk = .ok config ∧ s = next := by
  rw [Store.loadAtDesk, result_bind, result_disk]
  simp only [result_ofExcept, Prod.mk.injEq]

theorem result_place (config : Kubeconfig) :
    result (place outside i config) s =
      let r := reply (derive (sourceOf outside s.1.disk i) config) s.2
      (r.1, s.1, r.2) :=
  rfl

theorem result_destination {path : String} (hpath : i.path = some path) (start : Node) :
    result (destination outside i start) s =
      let r := reply (start.walk (sourceOf outside s.1.disk i) path) s.2
      (r.1, s.1, r.2) := by
  rw [destination, hpath]
  rfl

theorem go_eq_ok_iff {path : String} {printed : Printed} (hpath : i.path = some path)
    (houtput : i.toOutput = true) :
    (∃ next, result (go outside env i) s = (.ok printed, next)) ↔
      ∃ node, Leads outside env i path s node ∧ print i node = .ok printed := by
  simp only [go, result_bind_eq_ok_iff, result_load_eq_ok_iff, houtput, if_true, result_ofExcept]
  constructor
  · rintro ⟨next, config, _, ⟨hload, rfl⟩, start, middle, hstart, node, last, hnode, hprint⟩
    rw [result_place] at hstart
    obtain ⟨hderive, rfl⟩ := Prod.mk.inj hstart
    rw [result_destination hpath] at hnode
    obtain ⟨hwalk, rfl⟩ := Prod.mk.inj hnode
    exact ⟨node, ⟨config, start, _, _, hload, Prod.ext hderive rfl, Prod.ext hwalk rfl⟩,
      (Prod.mk.inj hprint).1⟩
  · rintro ⟨node, ⟨config, start, middle, last, hload, hderive, hwalk⟩, hprint⟩
    refine ⟨(s.1, last), config, s, ⟨hload, rfl⟩, start, (s.1, middle), ?_, node, (s.1, last), ?_,
      by rw [hprint]⟩
    · rw [result_place, hderive]
    · rw [result_destination hpath]
      simp only [hwalk]

/-- What is printed is the kubeconfig of the place that the path leads to. There is no way back to a
previous target without a file. -/
theorem run_eq_ok_iff {path : String} {printed : Printed} (hpath : i.path = some path)
    (houtput : i.toOutput = true) :
    (result (run outside env i) s).1 = .ok printed ↔
      path ≠ "-" ∧ ∃ node, Leads outside env i path s node ∧ print i node = .ok printed := by
  have hprevious : i.toPrevious = true ↔ path = "-" := by
    rw [Invocation.toPrevious, hpath, beq_iff_eq, Option.some.injEq]
  rw [run]
  by_cases hback : path = "-"
  · rw [if_pos (hprevious.2 hback), back, if_pos houtput]
    exact iff_of_false (fun h ↦ by cases h) fun h ↦ h.1 hback
  · rw [if_neg (hback ∘ hprevious.1), ← go_eq_ok_iff hpath houtput]
    constructor
    · exact fun h ↦ ⟨hback, _, Prod.ext h rfl⟩
    · rintro ⟨-, next, h⟩
      rw [h]

/-- With `-` for its file, a command leaves the files alone. It comes to something exactly when its
path leads to a place that can be accepted, and then it prints the kubeconfig of that place, under
the name that was asked for; otherwise its output is empty. -/
theorem run_prints (outside : Remote.Outside (StateM σ)) (env : String → Option String)
    (i : Invocation) (path : String) (s : Desk × σ) (houtput : i.toOutput = true)
    (hpath : i.path = some path) (hcontext : i.context ≠ "") :
    (result (run outside env i) s).2.1 = s.1 ∧
      ((∃ printed, (result (run outside env i) s).1 = .ok printed) ↔
        path ≠ "-" ∧ ∃ node, Leads outside env i path s node ∧ node.isAcceptable = true) ∧
      match (result (run outside env i) s).1 with
      | .error failure => (ending (.error failure)).printed.output = ""
      | .ok printed => ∃ node config target, Leads outside env i path s node ∧
          node.kubeconfig? i.context = some config ∧
          (ending (.ok printed)).printed.output = config.render ∧
          config.resolveCurrent = .ok target ∧ target.name = i.context := by
  refine ⟨rests_run houtput s, ⟨?_, ?_⟩, ?_⟩
  · rintro ⟨printed, hprinted⟩
    obtain ⟨hforth, node, hleads, hprint⟩ := (run_eq_ok_iff hpath houtput).1 hprinted
    exact ⟨hforth, node, hleads, (print_eq_ok_iff.1 hprint).1⟩
  · rintro ⟨hforth, node, hleads, hacceptable⟩
    obtain ⟨cluster, user, namespaceName, hconfig⟩ := Node.exists_kubeconfig hacceptable i.context
    exact ⟨_, (run_eq_ok_iff hpath houtput).2
      ⟨hforth, node, hleads, print_of_config hacceptable hconfig⟩⟩
  · cases hresult : (result (run outside env i) s).1 with
    | error failure => rfl
    | ok printed =>
      obtain ⟨-, node, hleads, hprint⟩ := (run_eq_ok_iff hpath houtput).1 hresult
      obtain ⟨hacceptable, config, hconfig, rfl⟩ := print_eq_ok_iff.1 hprint
      obtain ⟨cluster, user, namespaceName, hsingle⟩ :=
        Node.exists_kubeconfig hacceptable i.context
      obtain rfl := Option.some.inj (hconfig.symm.trans hsingle)
      exact ⟨node, _, _, hleads, hconfig, rfl,
        Kubeconfig.resolveCurrent_single hcontext cluster user namespaceName, rfl⟩

/-- A network on which every server says that it is the disconnected space `h`. -/
def answering : Remote.Outside (StateM Unit) where
  send _ := pure (some
    { status := 200
      body := (Text.encode "\x7b\"data\":\x7b\"ingress-host\":\"h\"\x7d\x7d").toList })
  start _ _ := pure (.error .notFound)

/-- Files with a kubeconfig that leads to the group `team` of that space. -/
def teamDisk : Disk where
  entries := NameMap.ofList [("/k", .file (Text.encode (
    "clusters:\n- name: h\n  cluster:\n    server: https://h\n" ++
    "contexts:\n- name: h\n  context:\n    cluster: h\n    namespace: team\n" ++
    "current-context: h\n")) Store.privateMode)]

/-- Asks for the kubeconfig of where one is. -/
def printingHere : Invocation where
  path := some "."
  context := "up"
  short := false
  file := some "-"
  token := none
  domain := "upbound.io"
  skipsVerification := false
  logLevel := "warn"

/-- An environment that lists a kubeconfig. -/
def listing (name : String) : Option String := if name = "KUBECONFIG" then some "/k" else none

/-- A group is printed, and the kubeconfig that leads to it is left as it is. -/
theorem run_prints_group :
    printingHere.toOutput = true ∧ printingHere.path = some "." ∧ printingHere.context ≠ "" ∧
      ∃ desk printed node config target,
        result (run answering listing printingHere) ({ disk := teamDisk }, ()) =
          (.ok printed, desk, ()) ∧
        desk.disk = teamDisk ∧ desk.taken = [] ∧
        Leads answering listing printingHere "." ({ disk := teamDisk }, ()) node ∧
        node.kubeconfig? "up" = some config ∧ printed.output = config.render ∧
        config.resolveCurrent = .ok target ∧ target.name = "up" := by
  have hcontext : printingHere.context ≠ "" := by decide
  have hok : (result (run answering listing printingHere) ({ disk := teamDisk }, ())).1.isOk =
      true := by decide +kernel
  have hprints :=
    run_prints answering listing printingHere "." ({ disk := teamDisk }, ()) rfl rfl hcontext
  obtain ⟨printed, ⟨desk, ⟨⟩⟩, hresult⟩ := exists_of_isOk hok
  rw [hresult] at hprints
  obtain ⟨hdesk, -, node, config, target, hprinted⟩ := hprints
  exact ⟨rfl, rfl, hcontext, desk, printed, node, config, target, hresult,
    congrArg Desk.disk hdesk, congrArg Desk.taken hdesk, hprinted⟩

end Command

end Wayfinder
