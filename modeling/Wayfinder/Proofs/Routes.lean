import Wayfinder.Proofs.Endpoints

/-!
Routes behind endpoints. Behind a scheme and host in normal form an address has the segments that
are written there, but for empty ones (`Url.IsWebOrigin.parse_trail`). Main statement: behind an
endpoint with none of the words `api`, `apis` and `namespaces` in its path, the group and the
control plane of a route are read back, whatever their names are and whatever follows them. The
endpoint is read back as well if the route names its resources, or if no segment behind `namespaces`
is one of the words for the API; where one is, all that comes before it is taken for the endpoint
(`ServerPath.parse_route`).
-/

set_option autoImplicit false
set_option relaxedAutoImplicit false

namespace Wayfinder

namespace Url

/-! ### Schemes and hosts in normal form -/

/-- A scheme and host of the web as reading writes them: an address that is its own origin. -/
def IsWebOrigin (origin : String) : Prop :=
  ∃ url, parse origin = .ok url ∧ IsWeb url.scheme ∧ url.origin = origin

theorem IsHostLike.not_isEdge {l : List Char} (h : IsHostLike l) : ∀ c ∈ l, isEdge c = false :=
  fun c hc ↦ (isHostChar_spec (h c hc)).1

theorem IsHostLike.not_endsAuthority {l : List Char} (h : IsHostLike l) (common : Bool) :
    ∀ c ∈ l, (!endsAuthority common c) = true := by
  intro c hc
  obtain ⟨-, hslash, hback, hquery, hfragment⟩ := isHostChar_spec (h c hc)
  simp [endsAuthority, hslash, hback, hquery, hfragment]

theorem dropWhile_isSlash_of_isHostText {text : String} (h : IsHostText text) (r : List Char) :
    (text.toList ++ r).dropWhile isSlash = text.toList ++ r := by
  have hne : text.toList ≠ [] := mt String.toList_eq_nil_iff.1 h.1
  refine Text.dropWhile_eq_self_iff_head?.2 fun c hc ↦ ?_
  rw [List.head?_append_of_ne_nil _ hne] at hc
  obtain ⟨-, hslash, hback, -⟩ := isHostChar_spec (h.2 c (List.mem_of_head? hc))
  rw [isSlash, Bool.or_eq_false_iff, beq_eq_false_iff_ne, beq_eq_false_iff_ne]
  exact ⟨hslash, hback⟩

/-- What follows the text of a host is read as it stands, if nothing in it is taken off an
address. -/
theorem parse_hostText {scheme text rest : String} (hscheme : IsWeb scheme)
    (htext : IsHostText text) (hrest : ∀ c ∈ rest.toList, isEdge c = false) :
    parse (scheme ++ "://" ++ (text ++ rest)) =
      withAuthority scheme commonPath (text.toList ++ rest.toList) := by
  have htidy : tidy (text.toList ++ rest.toList) = text.toList ++ rest.toList := by
    have hall : ∀ c ∈ text.toList ++ rest.toList, isEdge c = false :=
      List.forall_mem_append.2 ⟨htext.2.not_isEdge, hrest⟩
    have hend := tidy_append_of_forall hall []
    have hnil : tidy [] = [] := rfl
    rwa [hnil, List.append_nil] at hend
  rw [parse_web hscheme, String.toList_append, htidy, dropWhile_isSlash_of_isHostText htext]

theorem takeWhile_hostText {text : String} (h : IsHostText text) (common : Bool) {r : List Char}
    (hr : ∀ c, r.head? = some c → c = '/') :
    (text.toList ++ r).takeWhile (!endsAuthority common ·) = text.toList ∧
      (text.toList ++ r).dropWhile (!endsAuthority common ·) = r := by
  have hall := h.2.not_endsAuthority common
  have hstop : r.takeWhile (!endsAuthority common ·) = [] ∧
      r.dropWhile (!endsAuthority common ·) = r := by
    cases r with
    | nil => exact ⟨rfl, rfl⟩
    | cons c more =>
      obtain rfl := hr c rfl
      exact ⟨rfl, rfl⟩
  constructor
  · rw [List.takeWhile_append_of_pos hall, hstop.1, List.append_nil]
  · rw [List.dropWhile_append_of_pos hall, hstop.2]

/-- A scheme and host in normal form are a scheme of the web and the text of a host that is read as
that text again. -/
theorem IsWebOrigin.exists_authority {origin : String} (h : IsWebOrigin origin) :
    ∃ scheme authority, IsWeb scheme ∧ IsHostText authority.text ∧
      origin = scheme ++ "://" ++ authority.text ∧
      readAuthority scheme authority.text.toList = .ok authority := by
  obtain ⟨url, hparse, hweb, horigin⟩ := h
  cases hauthority : url.authority with
  | none =>
    -- An address without a host belongs to no origin, and the word for that is no address.
    have hnull : url.origin = "null" := by
      rw [Url.origin, originWithin, if_neg hweb.ne_blob, hauthority]
    have hrelative : parse "null" = .error .relative := rfl
    rw [← horigin, hnull, hrelative] at hparse
    cases hparse
  | some authority =>
    have htext := (parse_regular hparse).host authority hauthority hweb.isCommon
    rw [origin_of_isWeb hweb hauthority] at horigin
    refine ⟨url.scheme, authority, hweb, htext, horigin.symm, ?_⟩
    have hread : parse (url.scheme ++ "://" ++ (authority.text ++ "")) =
        withAuthority url.scheme commonPath (authority.text.toList ++ "".toList) :=
      parse_hostText hweb htext (List.forall_mem_nil _)
    have hend : ∀ c, "".toList.head? = some c → c = '/' := fun c hc ↦ by cases hc
    obtain ⟨htake, -⟩ := takeWhile_hostText htext (isCommon url.scheme) hend
    rw [String.append_empty, horigin, hparse] at hread
    obtain ⟨other, hother, hok⟩ := Switch.bind_eq_ok hread.symm
    obtain rfl : other = authority := by
      have hsame := congrArg Url.authority (Except.ok.inj hok)
      exact Option.some.inj (hsame.trans hauthority)
    rwa [htake] at hother

/-- Behind a scheme and host in normal form an address has the segments that are written there. -/
theorem IsWebOrigin.parse_trail {origin : String} (h : IsWebOrigin origin) {l : List String}
    (hl : ∀ segment ∈ l, IsSettled segment) :
    ∃ url, parse (origin ++ trail l) = .ok url ∧ url.origin = origin ∧
      filled url.pathSegments = filled l := by
  obtain ⟨scheme, authority, hweb, htext, rfl, hauthority⟩ := h.exists_authority
  have hkept : ∀ segment ∈ l, IsKept segment := fun segment hsegment ↦ (hl segment hsegment).keeps
  have hhead : ∀ c, (behind l).head? = some c → c = '/' := by
    cases l with
    | nil =>
      intro c hc
      cases hc
    | cons first rest => exact fun c hc ↦ (Option.some.inj hc).symm
  have hedge : ∀ c ∈ (trail l).toList, isEdge c = false := by
    rw [toList_trail]
    exact fun c ↦ isEdge_of_mem_behind hkept
  obtain ⟨htake, hdrop⟩ := takeWhile_hostText htext (isCommon scheme) hhead
  refine ⟨{ scheme, authority := some authority, path := commonPath (behind l),
            query := none, fragment := none }, ?_, origin_of_isWeb hweb rfl, ?_⟩
  · rw [String.append_assoc, parse_hostText hweb htext hedge, toList_trail, withAuthority, htake,
      hdrop, hauthority]
    exact congrArg Except.ok (ending_eq (not_mem_behind hkept (by decide) (Or.inl rfl))
      (not_mem_behind hkept (by decide) (Or.inl rfl)))
  · rw [pathSegments_eq, webSegments]
    cases l with
    | nil => rfl
    | cons first rest =>
      have hbehind : behind (first :: rest) = '/' :: (first.toList ++ behind rest) := rfl
      rw [hbehind, commonPath_cons rfl]
      exact filled_segments_names hl

end Url

namespace ServerPath

open Url

/-! ### Routes -/

/-- Whether a segment is one of the words for the API. -/
def isApi (segment : String) : Bool := segment == "apis" || segment == "api"

/-- The way behind an endpoint to a group, or to a control plane in it. -/
structure Route where
  /-- The group and version of the resources, if the way names them. -/
  resources : Option (String × String)
  group : String
  /-- The control plane, and what is asked of it. -/
  controlPlane : Option (String × List String)
  deriving DecidableEq, Repr

namespace Route

/-- The segments of a route behind the word for groups. -/
def places (r : Route) : List String :=
  r.group ::
    match r.controlPlane with
    | some (name, more) => "controlplanes" :: name :: more
    | none => []

/-- The segments of a route. -/
def segments (r : Route) : List String :=
  match r.resources with
  | some (group, version) => "apis" :: group :: version :: "namespaces" :: r.places
  | none => "namespaces" :: r.places

/-- The segments of a route that are taken for the end of the endpoint before it: without resources,
all before a word for the API. -/
def overrun (r : Route) : List String :=
  if r.resources.isNone && r.places.any isApi then "namespaces" :: r.places.takeWhile (!isApi ·)
  else []

theorem overrun_eq_nil_iff (r : Route) :
    r.overrun = [] ↔ (r.resources = none → ∀ place ∈ r.places, isApi place = false) := by
  have hany : r.places.any isApi = false ↔ ∀ place ∈ r.places, isApi place = false := by
    rw [List.any_eq_false]
    simp only [Bool.not_eq_true]
  rw [overrun, ← hany]
  cases r.resources with
  | none => cases r.places.any isApi <;> simp
  | some resources => simp

end Route

/-! ### Words of the route -/

theorem names_places (r : Route) :
    names ("namespaces" :: r.places) = (some r.group, r.controlPlane.map Prod.fst) := by
  obtain ⟨resources, group, controlPlane⟩ := r
  cases controlPlane with
  | none => rfl
  | some inside => rfl

/-- The group and the control plane of a route are found at the first word for groups, so names may
be that word again, but those of the resources may not. -/
theorem names_segments {r : Route}
    (h : ∀ resources ∈ r.resources, resources.1 ≠ "namespaces" ∧ resources.2 ≠ "namespaces") :
    names r.segments = (some r.group, r.controlPlane.map Prod.fst) := by
  rw [← names_places, Route.segments]
  split
  · next group version hsome =>
    obtain ⟨hgroup, hversion⟩ := h _ hsome
    have hapis : ("apis" != "namespaces") = true := rfl
    rw [names, List.dropWhile_cons, if_pos hapis, List.dropWhile_cons,
      if_pos (bne_iff_ne.2 hgroup), List.dropWhile_cons, if_pos (bne_iff_ne.2 hversion), names]
  · rfl

/-- The endpoint before a route ends at the first word for the API, and only without any at the word
for groups. -/
theorem endpoint_segments (r : Route) : endpoint r.segments = r.overrun := by
  rw [Route.overrun, Route.segments]
  split
  · next hsome =>
    rw [hsome]
    rfl
  · next hnone =>
    have hword : isApi "namespaces" = false := rfl
    have hends : endpoint ("namespaces" :: r.places) =
        if ("namespaces" :: r.places).any isApi then
          ("namespaces" :: r.places).takeWhile (!isApi ·)
        else ("namespaces" :: r.places).takeWhile (· != "namespaces") := rfl
    -- The search for a word for the API goes on behind the word for groups.
    rw [hends, hnone, List.any_cons, hword, Bool.false_or, Option.isNone_none, Bool.true_and]
    split
    · rw [List.takeWhile_cons, hword, Bool.not_false, if_pos rfl]
    · rfl

/-! ### Routes behind endpoints -/

theorem append_trail_eq_iff {origin : String} {before more : List String} :
    origin ++ trail (before ++ more) = origin ++ trail before ↔ more = [] := by
  have hsplit : behind (before ++ more) = behind before ++ behind more := List.flatMap_append
  rw [← String.toList_inj, String.toList_append, String.toList_append, toList_trail, toList_trail,
    hsplit, List.append_cancel_left_eq, List.append_right_eq_self]
  cases more with
  | nil => simp [behind]
  | cons name rest => simp [behind]

/-- An address in normal form at an endpoint, with a route or without one: the group and the control
plane are read back, and the endpoint unless a route without resources overruns it. Segments that
are empty, from slashes in a row or at the end, make no difference. -/
theorem parse_route {origin : String} (horigin : IsWebOrigin origin) (before : List String)
    (hbefore : ∀ segment ∈ before,
      segment ≠ "api" ∧ segment ≠ "apis" ∧ segment ≠ "namespaces")
    (route : Option Route)
    (hroute : ∀ r ∈ route, ∀ resources ∈ r.resources,
      resources.1 ≠ "namespaces" ∧ resources.2 ≠ "namespaces")
    (l : List String) (hsettled : ∀ segment ∈ l, IsSettled segment)
    (hl : Url.filled l = before ++ route.elim [] Route.segments) :
    ∃ path, parse (origin ++ trail l) = .ok path ∧
      path.group = route.map Route.group ∧
      path.controlPlane = route.bind (fun r ↦ r.controlPlane.map Prod.fst) ∧
      path.base = origin ++ trail (before ++ route.elim [] Route.overrun) ∧
      (path.base = origin ++ trail before ↔
        ∀ r ∈ route, r.resources = none → ∀ place ∈ r.places, isApi place = false) := by
  obtain ⟨url, hurl, horigin, hsegments⟩ := horigin.parse_trail hsettled
  have hread : ofUrl url =
      { base := origin ++ trail (before ++ route.elim [] Route.overrun)
        group := route.map Route.group
        controlPlane := route.bind fun r ↦ r.controlPlane.map Prod.fst } := by
    rw [ofUrl_eq, hsegments, hl, horigin]
    cases route with
    | none =>
      simp only [Option.elim_none, List.append_nil, endpoint_of_forall hbefore,
        names_of_forall hbefore, Option.map_none, Option.bind_none]
    | some r =>
      simp only [Option.elim_some, endpoint_append hbefore, names_append hbefore,
        endpoint_segments, names_segments (hroute r rfl), Option.map_some, Option.bind_some]
  have hend : route.elim [] Route.overrun = [] ↔
      ∀ r ∈ route, r.resources = none → ∀ place ∈ r.places, isApi place = false := by
    cases route with
    | none => simp
    | some r => simpa using r.overrun_eq_nil_iff
  refine ⟨ofUrl url, parse_of_url hurl, ?_, ?_, ?_, ?_⟩
  · rw [hread]
  · rw [hread]
  · rw [hread]
  · rw [hread, append_trail_eq_iff, hend]

/-- Names and further segments may be words of the route, if it names its resources. Without these
the endpoint takes in all before a control plane called `apis`. -/
theorem parse_route_words :
    IsWebOrigin "https://spaces.local:8443" ∧ IsWebOrigin "http://h" ∧
      (∃ path, parse ("https://spaces.local:8443" ++ trail ["proxy", "", "apis", "api", "v1",
            "namespaces", "namespaces", "controlplanes", "controlplanes", "api", ""]) = .ok path ∧
        path.group = some "namespaces" ∧ path.controlPlane = some "controlplanes" ∧
        path.base = "https://spaces.local:8443/proxy") ∧
      ∃ path, parse ("http://h" ++ trail ["namespaces", "team", "controlplanes", "apis", "k8s"]) =
          .ok path ∧
        path.group = some "team" ∧ path.controlPlane = some "apis" ∧
        path.base = "http://h/namespaces/team/controlplanes" ∧ path.base ≠ "http://h" := by
  have hlocal : IsWebOrigin "https://spaces.local:8443" :=
    ⟨{ scheme := "https"
       authority := some { host := some (.domain "spaces.local"), port := some 8443 }
       path := .segments [""], query := none, fragment := none }, rfl, Or.inl rfl, rfl⟩
  have hshort : IsWebOrigin "http://h" :=
    ⟨{ scheme := "http", authority := some { host := some (.domain "h"), port := none }
       path := .segments [""], query := none, fragment := none }, rfl, Or.inr rfl, rfl⟩
  obtain ⟨path, hpath, hgroup, hcontrolPlane, hbase, -⟩ := parse_route hlocal ["proxy"] (by decide)
    (some ⟨some ("api", "v1"), "namespaces", some ("controlplanes", ["api"])⟩) (by decide)
    ["proxy", "", "apis", "api", "v1", "namespaces", "namespaces", "controlplanes",
      "controlplanes", "api", ""] (by decide) rfl
  obtain ⟨other, hother, hgroup', hcontrolPlane', hbase', hiff⟩ := parse_route hshort [] (by decide)
    (some ⟨none, "team", some ("apis", ["k8s"])⟩) (by decide)
    ["namespaces", "team", "controlplanes", "apis", "k8s"] (by decide) rfl
  refine ⟨hlocal, hshort, ⟨path, hpath, hgroup, hcontrolPlane, hbase⟩, other, hother, hgroup',
    hcontrolPlane', hbase', fun hsame ↦ ?_⟩
  exact absurd (hiff.1 hsame _ rfl rfl "apis" (by decide)) (by decide)

/-- The address of the group `api`: the same segment is the group and a word for the API, so the
endpoint ends before it and not before the word for groups. -/
theorem parse_route_overrun :
    IsWebOrigin "https://h" ∧ IsResourceName "api" ∧
      parse ("https://h" ++ trail ["namespaces", "api"]) =
        .ok { base := "https://h/namespaces", group := some "api", controlPlane := none } ∧
      "https://h/namespaces" ≠ "https://h" ++ trail [] := by
  refine ⟨⟨{ scheme := "https", authority := some { host := some (.domain "h"), port := none }
             path := .segments [""], query := none, fragment := none }, rfl, Or.inl rfl, rfl⟩,
    by decide, rfl, by decide⟩

end ServerPath

end Wayfinder
