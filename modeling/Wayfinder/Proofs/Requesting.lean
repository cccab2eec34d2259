import Wayfinder.Proofs.Asking
import Wayfinder.Proofs.Prolonging
import Wayfinder.Proofs.Segments
import Wayfinder.Remote.Cloud

/-!
Where organizations and groups are asked about by their names. Main statement: each question is one
request, for the segment of the name between fixed ones behind the base, unless the name is a full
stop or two; then the request is for the resource that the step leads to (`Remote.names_asked`,
`Url.landing`).

The address is put together as a text and read again, so two things carry the result: what is
spelled for a name is one segment and is a step only for these two names (`Segments`), and what is
read behind a beginning are the segments that are written there with the steps taken (`Prolonging`).
A base with a query or a fragment takes in all that follows it, so the path of the request is then
that of the base (`Request.isUnmarked_of_build`).
-/

set_option autoImplicit false
set_option relaxedAutoImplicit false

namespace Wayfinder

namespace Url

/-! ### Where names lead -/

/-- Where a name leads between other segments: to a segment of its own, unless it is a step. -/
def landing (before : List String) (name last : String) : List String :=
  if name = ".." then before.dropLast ++ [last]
  else if name = "." then before ++ [last]
  else before ++ [Percent.segment name, last]

/-- How many segments longer a way becomes by a name and the segment behind it. -/
def stretch (name : String) : ℕ := if name = ".." then 0 else if name = "." then 1 else 2

theorem stretch_eq_zero_iff {name : String} : stretch name = 0 ↔ name = ".." := by
  unfold stretch
  split
  · next hup => exact ⟨fun _ ↦ hup, fun _ ↦ rfl⟩
  · next hup => split <;> exact ⟨fun h ↦ by omega, fun h ↦ absurd h hup⟩

theorem stretch_eq_one_iff {name : String} : stretch name = 1 ↔ name = "." := by
  unfold stretch
  split
  · next hup => exact ⟨fun h ↦ by omega, fun h ↦ absurd (hup.symm.trans h) (by decide)⟩
  · split
    · next hstay => exact ⟨fun _ ↦ hstay, fun _ ↦ rfl⟩
    · next hstay => exact ⟨fun h ↦ by omega, fun h ↦ absurd h hstay⟩

theorem length_landing {before : List String} (hne : before ≠ []) (name last : String) :
    (landing before name last).length = before.length + stretch name := by
  have hpos := List.length_pos_iff.2 hne
  unfold landing stretch
  split
  · rw [List.length_append, List.length_dropLast, List.length_singleton]
    omega
  · split
    · rw [List.length_append, List.length_singleton]
    · rw [List.length_append, List.length_cons, List.length_singleton]

/-- Different names lead to different places: each step to a length of its own, and all others by
segments of their own. -/
theorem landing_inj {before : List String} (hne : before ≠ []) {name other last : String}
    (h : landing before name last = landing before other last) : name = other := by
  have hstretch : stretch name = stretch other := by
    have hlength := congrArg List.length h
    rwa [length_landing hne, length_landing hne, Nat.add_left_cancel_iff] at hlength
  have hup : name = ".." ↔ other = ".." := by
    rw [← stretch_eq_zero_iff, hstretch, stretch_eq_zero_iff]
  have hstay : name = "." ↔ other = "." := by
    rw [← stretch_eq_one_iff, hstretch, stretch_eq_one_iff]
  by_cases hname : name = ".."
  · exact hname.trans (hup.1 hname).symm
  · by_cases hname' : name = "."
    · exact hname'.trans (hstay.1 hname').symm
    · rw [landing, landing, if_neg hname, if_neg hname', if_neg (mt hup.2 hname),
        if_neg (mt hstay.2 hname')] at h
      exact Percent.segment_inj.1 (List.cons.inj (List.append_cancel_left h)).1

theorem landing_eq_iff {before : List String} (hne : before ≠ []) {name last : String} :
    landing before name last = before ++ [Percent.segment name, last] ↔
      name ≠ "." ∧ name ≠ ".." := by
  constructor
  · intro h
    have hstretch : stretch name = 2 := by
      have hlength := congrArg List.length h
      rwa [length_landing hne, List.length_append, Nat.add_left_cancel_iff] at hlength
    refine ⟨fun hstay ↦ ?_, fun hup ↦ ?_⟩
    · exact absurd (stretch_eq_one_iff.2 hstay) (by omega)
    · exact absurd (stretch_eq_zero_iff.2 hup) (by omega)
  · rintro ⟨hstay, hup⟩
    rw [landing, if_neg hup, if_neg hstay]

theorem forall_isKept {directory before : List String} {last : String}
    (hdirectory : ∀ segment ∈ directory, IsSettled segment)
    (hbefore : ∀ segment ∈ before, IsSettled segment) (name : String) (hlast : IsSettled last) :
    ∀ segment ∈ directory ++ (before ++ [Percent.segment name, last]), IsKept segment := by
  simp only [List.forall_mem_append, List.forall_mem_cons]
  exact ⟨fun segment hsegment ↦ (hdirectory segment hsegment).keeps,
    fun segment hsegment ↦ (hbefore segment hsegment).keeps, Percent.isKept_segment name,
    hlast.keeps, List.forall_mem_nil _⟩

/-- Behind settled segments a name is taken to where it leads. -/
theorem takeSteps_landing {before : List String} (hbefore : ∀ segment ∈ before, IsSettled segment)
    (hne : before ≠ []) (name : String) {last : String} (hlast : IsSettled last)
    (done : List String) :
    takeSteps (done.map String.toList)
        ((before ++ [Percent.segment name, last]).map String.toList) =
      (done ++ landing before name last).map String.toList := by
  have hlasts : ∀ s ∈ [last].map String.toList, isStepUp s = false ∧ isStay s = false :=
    not_step_of_mem fun segment hsegment ↦ List.mem_singleton.1 hsegment ▸ hlast
  rw [List.map_append, takeSteps_settled_append (not_step_of_mem hbefore), List.map_cons,
    takeSteps_cons, takeSteps_plain hlasts, List.isEmpty_map, List.isEmpty_cons, landing]
  by_cases hup : name = ".."
  · rw [if_pos (isStepUp_segment_iff.2 hup), if_pos hup, if_neg Bool.false_ne_true,
      ← List.map_append, ← List.map_dropLast, ← List.map_append,
      List.dropLast_append_of_ne_nil hne, List.append_assoc]
  · rw [if_neg (mt isStepUp_segment_iff.1 hup), if_neg hup]
    by_cases hstay : name = "."
    · rw [if_pos (isStay_segment_iff.2 hstay), if_pos hstay, if_neg Bool.false_ne_true,
        ← List.map_append, ← List.map_append, List.append_assoc]
    · have hsegment : [(Percent.segment name).toList] ++ [last].map String.toList =
          [Percent.segment name, last].map String.toList := rfl
      rw [if_neg (mt isStay_segment_iff.1 hstay), if_neg hstay, List.append_assoc, hsegment,
        ← List.map_append, ← List.map_append, List.append_assoc]

end Url

namespace Remote

open Url

namespace Request

variable {address : String} {token : Option String} {trust : Trust} {request : Request}

/-- What can be requested: an address of the web with a host that can be connected to, and a token
that can be sent. -/
theorem build_eq_ok_iff : build address token trust = .ok request ↔
    ∃ host, Url.parse address = .ok request.url ∧
      request.url.authority.bind (·.host) = some host ∧ token.all isSendable = true ∧
      IsWeb request.url.scheme ∧ isConnectable host = true ∧
      request.token = token ∧ request.trust = trust := by
  constructor
  · intro h
    unfold build at h
    split at h
    · cases h
    · next url hparse =>
      split at h
      · cases h
      · next host hhost =>
        split at h
        · cases h
        · next htoken =>
          split at h
          · next hscheme =>
            obtain rfl := Except.ok.inj h
            rw [Bool.and_eq_true, Bool.or_eq_true, beq_iff_eq, beq_iff_eq] at hscheme
            exact ⟨host, hparse, hhost, by simpa using htoken, hscheme.1, hscheme.2, rfl, rfl⟩
          · cases h
  · rintro ⟨host, hparse, hhost, htoken, hweb, hconnectable, rfl, rfl⟩
    have hscheme : (request.url.scheme == "https" || request.url.scheme == "http") = true := by
      rw [Bool.or_eq_true, beq_iff_eq, beq_iff_eq]
      exact hweb
    rw [build, hparse]
    simp only [hhost, htoken, hscheme, hconnectable, Bool.not_true, Bool.and_true,
      Bool.false_eq_true, if_false, if_true]

theorem parse_of_build (h : build address token trust = .ok request) :
    Url.parse address = .ok request.url ∧ IsWeb request.url.scheme := by
  obtain ⟨host, hparse, -, -, hweb, -⟩ := build_eq_ok_iff.1 h
  exact ⟨hparse, hweb⟩

/-- A request for another address with the same scheme and host can be built as well. -/
theorem build_of_parse (h : build address token trust = .ok request) {other : String} {url : Url}
    (hparse : Url.parse other = .ok url) (hscheme : url.scheme = request.url.scheme)
    (hauthority : url.authority = request.url.authority) :
    build other token trust = .ok { request with url } := by
  obtain ⟨host, -, hhost, htoken, hweb, hconnectable, hsame⟩ := build_eq_ok_iff.1 h
  exact build_eq_ok_iff.2
    ⟨host, hparse, hauthority ▸ hhost, htoken, hscheme ▸ hweb, hconnectable, hsame⟩

/-- A request for a path alone, without a query or a fragment behind it. -/
def IsUnmarked (request : Request) : Prop :=
  request.url.query = none ∧ request.url.fragment = none

/-- The request for a way behind another one, and for nothing else. -/
def behind (request : Request) (way : List String) : Request :=
  { request with
    url := { request.url with
      path := .segments (request.url.directory ++ way), query := none, fragment := none } }

theorem behind_inj {way other : List String} (h : request.behind way = request.behind other) :
    way = other := by
  have hpath := congrArg (fun r : Request ↦ r.url.path) h
  exact List.append_cancel_left (Path.segments.inj hpath)

section Begins

variable {s scheme : String} {l : List Char} {base names : List String} {start : Request}

/-- Requests for what begins like another request differ from it in what stands behind the path that
they share. -/
theorem exists_ending (hbegins : Begins s scheme l) (hbase : ∀ name ∈ base, IsKept name)
    (hne : base ≠ []) (hstart : build (s ++ trail base) token trust = .ok start) :
    ∃ authority, start.url = ending scheme (some authority) commonPath
        (pathPart l ++ Url.behind base) ∧
      ∀ names, (∀ name ∈ names, IsKept name) → names ≠ [] →
        build (s ++ trail names) token trust = .ok { start with
          url := ending scheme (some authority) commonPath (pathPart l ++ Url.behind names) } := by
  have hparse := (parse_of_build hstart).1
  rw [hbegins.parse_eq hbase hne] at hparse
  cases hauthority : readAuthority scheme (hostPart l) with
  | error fault =>
    rw [hauthority] at hparse
    cases hparse
  | ok authority =>
    rw [hauthority] at hparse
    have hurl := (Except.ok.inj hparse).symm
    refine ⟨authority, hurl, fun names hkept hnames ↦ ?_⟩
    refine build_of_parse hstart ?_ (congrArg Url.scheme hurl).symm
      (congrArg Url.authority hurl).symm
    rw [hbegins.parse_eq hkept hnames, hauthority]
    rfl

variable (hbegins : Begins s scheme l) (hbase : ∀ name ∈ base, IsSettled name) (hne : base ≠ [])
  (hstart : build (s ++ trail base) token trust = .ok start)

include hbegins hbase hne hstart

/-- A query or a fragment at the beginning takes in all that follows. -/
theorem isUnmarked_of_build (hkept : ∀ name ∈ names, IsKept name) (hnames : names ≠ [])
    (hbuild : build (s ++ trail names) token trust = .ok request) (h : request.IsUnmarked) :
    start.IsUnmarked := by
  have hb : ∀ name ∈ base, IsKept name := fun name hname ↦ (hbase name hname).keeps
  obtain ⟨authority, hurl, hothers⟩ := exists_ending hbegins hb hne hstart
  have hother := (hothers names hkept hnames).symm.trans hbuild
  obtain rfl := Except.ok.inj hother
  obtain ⟨hfragment, hquery⟩ := marks_of_ending h.1 h.2
  rw [List.mem_append, not_or] at hfragment hquery
  have hpath : start.url = _ := hurl.trans (ending_eq
    (mt List.mem_append.1 (not_or.2 ⟨hfragment.1, not_mem_behind hb (by decide) (Or.inl rfl)⟩))
    (mt List.mem_append.1 (not_or.2 ⟨hquery.1, not_mem_behind hb (by decide) (Or.inl rfl)⟩)))
  exact ⟨congrArg Url.query hpath, congrArg Url.fragment hpath⟩

/-- Behind a path alone a name is requested where it leads. -/
theorem build_landing (hunmarked : start.IsUnmarked) {before : List String}
    (hbefore : ∀ segment ∈ before, IsSettled segment) (hsome : before ≠ []) {last : String}
    (hlast : IsSettled last) (name : String) :
    build (s ++ trail (directoryOf base ++ (before ++ [Percent.segment name, last]))) token trust =
      .ok (start.behind (landing before name last)) := by
  have hb : ∀ name ∈ base, IsKept name := fun name hname ↦ (hbase name hname).keeps
  obtain ⟨authority, hurl, hothers⟩ := exists_ending hbegins hb hne hstart
  obtain ⟨hfragment, hquery⟩ : '#' ∉ pathPart l ∧ '?' ∉ pathPart l := by
    have hmarks := marks_of_ending (hurl ▸ hunmarked.1) (hurl ▸ hunmarked.2)
    rw [List.mem_append, not_or, List.mem_append, not_or] at hmarks
    exact ⟨hmarks.1.1, hmarks.2.1⟩
  obtain ⟨done, hdone⟩ := exists_commonPath_behind (l := pathPart l) fun c hc ↦
    isSlash_of_head? hc hfragment hquery
  -- The path behind this beginning is where it leads, and then the names one by one.
  have hpath (names : List String) (hkept : ∀ name ∈ names, IsKept name) (hnames : names ≠ []) :
      ending scheme (some authority) commonPath (pathPart l ++ Url.behind names) =
        { scheme, authority := some authority
          path := .segments ((takeSteps done (names.map String.toList)).map String.ofList)
          query := none, fragment := none } := by
    rw [ending_eq, hdone names hkept hnames]
    · exact mt List.mem_append.1
        (not_or.2 ⟨hfragment, not_mem_behind hkept (by decide) (Or.inl rfl)⟩)
    · exact mt List.mem_append.1
        (not_or.2 ⟨hquery, not_mem_behind hkept (by decide) (Or.inl rfl)⟩)
  have hdirectory : start.url.directory = done.map String.ofList ++ directoryOf base := by
    rw [hurl, hpath base hb hne, directory, pathSegments]
    simp only [takeSteps_plain (not_step_of_mem hbase), List.map_append, map_ofList_toList]
    exact directoryOf_append hne _
  have hsettled : ∀ segment ∈ directoryOf base, IsSettled segment := fun segment hsegment ↦
    hbase segment (mem_of_mem_directoryOf hsegment)
  have hkept := forall_isKept hsettled hbefore name hlast
  have hnames : directoryOf base ++ (before ++ [Percent.segment name, last]) ≠ [] := by simp
  have hlanding : takeSteps (done ++ (directoryOf base).map String.toList)
      ((before ++ [Percent.segment name, last]).map String.toList) =
        (done.map String.ofList ++ directoryOf base ++ landing before name last).map
          String.toList := by
    have hdone : (done.map String.ofList ++ directoryOf base).map String.toList =
        done ++ (directoryOf base).map String.toList := by
      rw [List.map_append, map_toList_ofList]
    rw [← takeSteps_landing hbefore hsome name hlast, hdone]
  rw [hothers _ hkept hnames, hpath _ hkept hnames, List.map_append,
    takeSteps_settled_append (not_step_of_mem hsettled), hlanding, map_ofList_toList, behind,
    hdirectory, hurl]
  rfl

/-- Names are asked about between the same segments behind a base. -/
structure Asks (ask : String → List Request) (base : Request) (before : List String)
    (last : String) : Prop where
  /-- A name is asked about where its segment is, unless it is a step or something stands behind the
  path of the base. -/
  apart_iff : ∀ name, ask name = [base.behind (before ++ [Percent.segment name, last])] ↔
    base.IsUnmarked ∧ name ≠ "." ∧ name ≠ ".."
  /-- A step is taken, and another resource asked for. -/
  lands : base.IsUnmarked → ∀ name, ask name = [base.behind (landing before name last)]
  injective : base.IsUnmarked → Function.Injective ask

/-- Whoever sends the request for each name asks about it behind the base. -/
theorem asks_of_build {before : List String} (hbefore : ∀ segment ∈ before, IsSettled segment)
    (hsome : before ≠ []) {last : String} (hlast : IsSettled last) {ask : String → List Request}
    (hask : ∀ name request, build (s ++ trail (directoryOf base ++
      (before ++ [Percent.segment name, last]))) token trust = .ok request → ask name = [request]) :
    Asks ask start before last := by
  have hlands : start.IsUnmarked → ∀ name, ask name = [start.behind (landing before name last)] :=
    fun hunmarked name ↦ hask name _
      (build_landing hbegins hbase hne hstart hunmarked hbefore hsome hlast name)
  refine ⟨fun name ↦ ⟨fun hname ↦ ?_, ?_⟩, hlands, fun hunmarked name other hsame ↦ ?_⟩
  · have hunmarked : start.IsUnmarked := by
      obtain ⟨authority, -, hothers⟩ := exists_ending hbegins
        (fun name hname ↦ (hbase name hname).keeps) hne hstart
      have hkept := forall_isKept (fun segment hsegment ↦
        hbase segment (mem_of_mem_directoryOf hsegment)) hbefore name hlast
      have hbuild := hothers _ hkept (by simp)
      have hsame := (hask name _ hbuild).symm.trans hname
      rw [(List.cons.inj hsame).1] at hbuild
      exact isUnmarked_of_build hbegins hbase hne hstart hkept (by simp) hbuild ⟨rfl, rfl⟩
    rw [hlands hunmarked] at hname
    exact ⟨hunmarked, (landing_eq_iff hsome).1 (behind_inj (List.cons.inj hname).1)⟩
  · rintro ⟨hunmarked, hstep⟩
    rw [hlands hunmarked, (landing_eq_iff hsome).2 hstep]
  · simp only [hlands hunmarked] at hsame
    exact landing_inj hsome (behind_inj (List.cons.inj hsame).1)

end Begins

end Request

/-! ### A network that keeps what it is sent -/

/-- A network that keeps the requests it is sent, and answers each by those before it. -/
def recording (answer : List Request → Request → Option Response)
    (start : Files.Disk → Credential.Launch → Except Files.IoFault Credential.Ended) :
    Outside (StateM (List Request)) where
  send request := fun sent ↦ (answer sent request, sent ++ [request])
  start disk launch := fun sent ↦ (start disk launch, sent)

/-- The requests that questions send. -/
def sent {α : Type} (x : ExceptT Failure (StateM (List Request)) α) : List Request := (reply x []).2

theorem sent_ask {α : Type} (answer : List Request → Request → Option Response)
    (start : Files.Disk → Credential.Launch → Except Files.IoFault Credential.Ended)
    (request : Request) (what : String) (read : Json → Option α) :
    sent (Request.ask (recording answer start) (.ok request) what read) = [request] := rfl

variable {answer : List Request → Request → Option Response}
  {start : Files.Disk → Credential.Launch → Except Files.IoFault Credential.Ended}

theorem Cloud.begins (domain : String) : ∃ l, Begins ("https://api." ++ domain) "https" l := by
  obtain ⟨rest, hrest⟩ : ∃ rest, rest = domain.toList.filter (!isBreak ·) := ⟨_, rfl⟩
  have hopening : opening ("https://api." ++ domain) = "https://api.".toList ++ rest := by
    rw [opening, String.toList_append, hrest]
    rfl
  refine ⟨"api.".toList ++ rest, Or.inl rfl, ⟨"//api.".toList ++ rest, ?_, rfl⟩,
    List.cons_ne_nil _ _⟩
  rw [hopening]
  rfl

theorem Cloud.spacesAddress_eq (cloud : Cloud) (organization : String) :
    cloud.spacesAddress organization = "https://api." ++ cloud.domain ++ trail
      (directoryOf ["v1"] ++ (["organizations"] ++ [Percent.segment organization, "spaces"])) := by
  refine String.toList_inj.1 ?_
  simp [Cloud.spacesAddress, Cloud.organizationsAddress, Cloud.baseAddress, toList_trail,
    Url.behind, directoryOf]

theorem Cloud.sent_spaces {cloud : Cloud} {organization token : String} {request : Request}
    (htoken : cloud.token = some token)
    (hrequest : Request.build (cloud.spacesAddress organization) (some token) {} = .ok request) :
    sent (cloud.spaces (recording answer start) organization) = [request] := by
  simp only [Cloud.spaces, Cloud.ask, htoken, hrequest]
  exact sent_ask _ _ _ _ _

theorem Cloud.asks {cloud : Cloud} {token : String} {base : Request}
    (htoken : cloud.token = some token)
    (hbase : Request.build cloud.baseAddress (some token) {} = .ok base) :
    Request.Asks (fun organization ↦ sent (cloud.spaces (recording answer start) organization))
      base ["organizations"] "spaces" := by
  obtain ⟨l, hbegins⟩ := Cloud.begins cloud.domain
  have hversion : ∀ segment ∈ ["v1"], IsSettled segment := by decide
  refine Request.asks_of_build hbegins hversion (List.cons_ne_nil _ _) hbase (by decide)
    (List.cons_ne_nil _ _) (by decide) fun name request hrequest ↦ ?_
  rw [← Cloud.spacesAddress_eq] at hrequest
  exact Cloud.sent_spaces htoken hrequest

/-- A cloud that no request can be built for is asked about no organization. -/
theorem Cloud.sent_eq_nil {cloud : Cloud}
    (h : ∀ token base, cloud.token = some token →
      Request.build cloud.baseAddress (some token) {} ≠ .ok base) (organization : String) :
    sent (cloud.spaces (recording answer start) organization) = [] := by
  rw [Cloud.spaces, Cloud.ask]
  cases htoken : cloud.token with
  | none => rfl
  | some token =>
    cases hrequest : Request.build (cloud.spacesAddress organization) (some token) {} with
    | error fault =>
      simp only [hrequest]
      rfl
    | ok request =>
      obtain ⟨l, hbegins⟩ := Cloud.begins cloud.domain
      have hversion : ∀ segment ∈ ["v1"], IsSettled segment := by decide
      have hword : ∀ segment ∈ ["organizations"], IsSettled segment := by decide
      have hspaces : IsSettled "spaces" := by decide
      rw [Cloud.spacesAddress_eq] at hrequest
      obtain ⟨authority, -, hothers⟩ := Request.exists_ending hbegins
        (forall_isKept hversion hword organization hspaces) (List.cons_ne_nil _ _) hrequest
      exact absurd (hothers ["v1"] (fun segment hsegment ↦ (hversion segment hsegment).keeps)
        (List.cons_ne_nil _ _)) (h token _ htoken)

theorem Endpoint.asks {endpoint : Endpoint} {base : Request}
    (hbase : endpoint.request "" = .ok base) :
    Request.Asks (fun group ↦ sent (endpoint.controlPlanes (recording answer start) group))
      base ["apis", "spaces.upbound.io", "v1beta1", "namespaces"] "controlplanes" := by
  have hslash : endpoint.server ++ "/" ++ "" = endpoint.server ++ trail [""] := by
    rw [String.append_empty]
    rfl
  rw [Endpoint.request, hslash] at hbase
  obtain ⟨hparse, hweb⟩ := Request.parse_of_build hbase
  obtain ⟨l, hbegins⟩ := exists_begins hparse hweb
  have hempty : ∀ segment ∈ [""], IsSettled segment := by decide
  refine Request.asks_of_build hbegins hempty (List.cons_ne_nil _ _) hbase (by decide)
    (List.cons_ne_nil _ _) (by decide) fun name request hrequest ↦ ?_
  have haddress : endpoint.server ++ "/" ++ controlPlanesPath name = endpoint.server ++
      trail (directoryOf [""] ++ (["apis", "spaces.upbound.io", "v1beta1", "namespaces"] ++
        [Percent.segment name, "controlplanes"])) := by
    refine String.toList_inj.1 ?_
    simp [controlPlanesPath, spacesPath, toList_trail, Url.behind, directoryOf]
  rw [← haddress] at hrequest
  rw [Endpoint.controlPlanes, Endpoint.request, hrequest]
  exact sent_ask _ _ _ _ _

/-- The base of an endpoint has the segments of its server, if the end of that is read as it is
written. -/
theorem Endpoint.directory_eq {endpoint : Endpoint} {base : Request} {url : Url}
    (hbase : endpoint.request "" = .ok base) (hurl : Url.parse endpoint.server = .ok url)
    (hend : EndsInside endpoint.server) (hweb : IsWeb url.scheme) (hquery : url.query = none)
    (hfragment : url.fragment = none) : base.url.directory = url.directory := by
  obtain ⟨slashed, hslashed, hdirectory⟩ := exists_parse_slash hend hurl hweb hquery hfragment
  have hparse := (Request.parse_of_build hbase).1
  rw [String.append_empty, hslashed] at hparse
  exact Except.ok.inj hparse ▸ hdirectory

/-- A name is spelled by a segment that is read back as the name. A cloud is asked about the spaces
of an organization, and an endpoint about the control planes of a group, by one request for that
segment between fixed ones behind the base, exactly if the base is a path alone and the name is no
step; a step is taken, and another resource is asked for. Different names are asked about by
different requests. Where no request can be built for a cloud, nothing is sent.

The base of an endpoint is its server with a slash behind it. At its very end the server loses
spaces that stay before a slash; with any other end both have the same segments. -/
theorem names_asked (answer : List Request → Request → Option Response)
    (start : Files.Disk → Credential.Launch → Except Files.IoFault Credential.Ended) :
    (∀ name, Percent.decode (Percent.segment name).toList = (Text.encode name).toList) ∧
    (∀ (cloud : Cloud) token base, cloud.token = some token →
      Request.build cloud.baseAddress (some token) {} = .ok base →
        Request.Asks (fun organization ↦ sent (cloud.spaces (recording answer start) organization))
          base ["organizations"] "spaces") ∧
    (∀ cloud : Cloud, (∀ token base, cloud.token = some token →
        Request.build cloud.baseAddress (some token) {} ≠ .ok base) →
      ∀ organization, sent (cloud.spaces (recording answer start) organization) = []) ∧
    ∀ (endpoint : Endpoint) base, endpoint.request "" = .ok base →
      Request.Asks (fun group ↦ sent (endpoint.controlPlanes (recording answer start) group))
        base ["apis", "spaces.upbound.io", "v1beta1", "namespaces"] "controlplanes" ∧
      ∀ url, Url.parse endpoint.server = .ok url → EndsInside endpoint.server →
        IsWeb url.scheme → url.query = none → url.fragment = none →
          base.url.directory = url.directory :=
  ⟨Percent.decode_segment, fun _ _ _ htoken hbase ↦ Cloud.asks htoken hbase,
    fun _ h ↦ Cloud.sent_eq_nil h, fun _ _ hbase ↦
      ⟨Endpoint.asks hbase, fun _ ↦ Endpoint.directory_eq hbase⟩⟩

/-- A network that reaches nothing. -/
def unreached : Outside (StateM (List Request)) :=
  recording (fun _ _ ↦ none) fun _ _ ↦ .error .notFound

/-- A cloud with a token, at the usual domain. -/
def usualCloud : Cloud where
  token := some "t"
  domain := "upbound.io"

/-- An endpoint behind a path. -/
def pathEndpoint : Endpoint where
  server := "https://h/p"
  token := none
  trust := {}

/-- An organization with a slash and a percent sign in its name, and a group that is a step. -/
theorem names_asked_odd :
    ∃ base other, Request.build usualCloud.baseAddress (some "t") {} = .ok base ∧
      pathEndpoint.request "" = .ok other ∧ base.IsUnmarked ∧ other.IsUnmarked ∧
      sent (usualCloud.spaces unreached "../%2e") =
        [base.behind ["organizations", "..%2F%252e", "spaces"]] ∧
      sent (pathEndpoint.controlPlanes unreached "..") =
        [other.behind ["apis", "spaces.upbound.io", "v1beta1", "controlplanes"]] := by
  obtain ⟨base, hbase, hunmarked⟩ : ∃ base,
      Request.build usualCloud.baseAddress (some "t") {} = .ok base ∧ base.IsUnmarked :=
    ⟨{ url := { scheme := "https"
                authority := some { host := some (.domain "api.upbound.io"), port := none }
                path := .segments ["v1"], query := none, fragment := none }
       token := some "t", trust := {} }, by rfl, rfl, rfl⟩
  obtain ⟨other, hother, hunmarked'⟩ : ∃ other,
      pathEndpoint.request "" = .ok other ∧ other.IsUnmarked :=
    ⟨{ url := { scheme := "https", authority := some { host := some (.domain "h"), port := none }
                path := .segments ["p", ""], query := none, fragment := none }
       token := none, trust := {} }, by rfl, rfl, rfl⟩
  obtain ⟨-, hcloud, -, hendpoint⟩ := names_asked (fun _ _ ↦ none) fun _ _ ↦ .error .notFound
  refine ⟨base, other, hbase, hother, hunmarked, hunmarked', ?_, ?_⟩
  · exact ((hcloud usualCloud "t" base rfl hbase).apart_iff "../%2e").2
      ⟨hunmarked, by decide, by decide⟩
  · exact (hendpoint pathEndpoint other hother).1.lands hunmarked' ".."

/-- The organization `..` is asked about at the spaces of no organization at all. -/
theorem spaces_strays :
    (sent (usualCloud.spaces unreached "..")).map (·.url.text) =
        ["https://api.upbound.io/v1/spaces"] ∧
      (sent (usualCloud.spaces unreached "..")).map (·.token) = [some "t"] ∧
      ∀ s, (sent (usualCloud.spaces unreached "..")).map (·.url.pathSegments) ≠
        [["v1", "organizations", s, "spaces"]] := by
  have haddress : usualCloud.spacesAddress ".." =
      "https://api.upbound.io/v1/organizations/../spaces" := by decide
  have hrequest : Request.build "https://api.upbound.io/v1/organizations/../spaces" (some "t") {} =
      .ok
        { url := { scheme := "https"
                   authority := some { host := some (.domain "api.upbound.io"), port := none }
                   path := .segments ["v1", "spaces"], query := none, fragment := none }
          token := some "t", trust := {} } := by rfl
  rw [← haddress] at hrequest
  have hsent : sent (usualCloud.spaces unreached "..") = [_] := Cloud.sent_spaces rfl hrequest
  rw [hsent]
  refine ⟨by decide, rfl, fun s hs ↦ ?_⟩
  have hlength := congrArg (List.map List.length) hs
  exact absurd hlength (by simp [pathSegments])

end Remote

end Wayfinder
