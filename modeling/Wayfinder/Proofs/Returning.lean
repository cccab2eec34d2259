import Wayfinder.Proofs.AllOrNothing
import Wayfinder.Proofs.Deriving
import Wayfinder.Proofs.Merging

/-!
Going where one already is. Main statement: when a place became the current target, the place that
is then derived from the kubeconfig can be accepted again, and that changes nothing and asks no
verifier (`accept_derived_idle`). For a control plane the address of its space has to be fit to be
gone on behind (`accept_derived_strays`).
-/

set_option autoImplicit false
set_option relaxedAutoImplicit false

namespace Wayfinder

/-! ### Places and their spaces -/

namespace Node

/-- The place of the same names in another space. -/
def within (space : Space) : Node → Node
  | .root => .root
  | .organization o => .organization o
  | .space _ => .space space
  | .group g => .group { g with space }
  | .controlPlane c => .controlPlane { c with group := { c.group with space } }

variable {node : Node} {space : Space}

theorem within_spec (hspace : node.space? = some space) (other : Space) :
    (node.within other).space? = some other ∧ (node.within other).way = node.way ∧
      (node.within other).namespace? = node.namespace? := by
  cases node with
  | root => cases hspace
  | organization o => cases hspace
  | space s => exact ⟨rfl, rfl, rfl⟩
  | group g => exact ⟨rfl, rfl, rfl⟩
  | controlPlane c => exact ⟨rfl, rfl, rfl⟩

/-- In a space with the same address a place has the address that it had. -/
theorem kubeconfig?_within {other : Space} {server : String} (hspace : node.space? = some space)
    (hother : other.serverUrl = space.serverUrl) (hserver : node.serverUrl? = some server)
    (name : String) : (node.within other).kubeconfig? name =
      some (.single name (other.cluster server) other.user node.namespace?) := by
  obtain ⟨hwithin, hway, hnamespace⟩ := within_spec hspace other
  obtain rfl := Option.some.inj ((serverUrl?_way hspace).symm.trans hserver)
  rw [kubeconfig?_way hwithin, hother, hway, hnamespace]

end Node

/-! ### Reading a place off its kubeconfig -/

/-- The part of the address of a place that leads into its space. Behind it the address of a control
plane goes on after a slash. -/
def Node.entrance (space : Space) : Node → String
  | .controlPlane _ => space.serverUrl ++ "/"
  | _ => space.serverUrl

/-- A place with an address that can be told apart: names are those of resources, and nothing in the
address of the space is taken for the way within it. -/
structure Node.Readable (node : Node) (space : Space) (url : Url) : Prop where
  lies : node.space? = some space
  address : Url.parse (node.entrance space) = .ok url
  query : url.query = none
  fragment : url.fragment = none
  bare : ServerPath.IsBare url
  group : ∀ g, node = .group g → IsResourceName g.name
  controlPlane : ∀ c, node = .controlPlane c → IsResourceName c.group.name ∧ IsResourceName c.name

/-- A place that can be told from the address and the namespace that it has in a kubeconfig: names
are those of resources, and nothing in the address of the space is taken for the way within it. A
space of an organization has the credentials of that, and an address in normal form. -/
structure Node.Legible (node : Node) (space : Space) : Prop where
  lies : node.space? = some space
  address : ∃ url, Url.parse (node.entrance space) = .ok url ∧ url.query = none ∧
    url.fragment = none ∧ ServerPath.IsBare url ∧
    (space.isCloud = true → (ServerPath.ofUrl url).base = space.serverUrl)
  group : ∀ g, node = .group g → IsResourceName g.name
  controlPlane : ∀ c, node = .controlPlane c → IsResourceName c.group.name ∧ IsResourceName c.name
  cloud : ∀ organization, space.organization = some organization →
    Credential.organizationOf space.user = some organization.name ∧
      ∃ rest, space.serverUrl = "https" ++ "://" ++ rest

variable {node : Node} {space : Space}

theorem Node.Legible.readable (h : node.Legible space) : ∃ url, node.Readable space url ∧
    (space.isCloud = true → (ServerPath.ofUrl url).base = space.serverUrl) := by
  obtain ⟨url, hurl, hquery, hfragment, hbare, hbase⟩ := h.address
  exact ⟨url, ⟨h.lies, hurl, hquery, hfragment, hbare, h.group, h.controlPlane⟩, hbase⟩

/-- The address of a place leads to its space, and with its namespace to the place. -/
theorem Node.Readable.parse_server {url : Url} (h : node.Readable space url) {server : String}
    {context : Context} (hserver : node.serverUrl? = some server)
    (hcontext : context.namespaceName = node.namespace?) :
    ∃ path, ServerPath.parse server = .ok path ∧ path.base = (ServerPath.ofUrl url).base ∧
      ∀ other, placeWithin other path context = node.within other := by
  have hurl := h.address
  have hnames := ServerPath.ofUrl_of_isBare h.bare
  have hspace := h.lies
  cases node with
  | root => cases hspace
  | organization o => cases hspace
  | space s =>
    obtain rfl := Option.some.inj hspace
    obtain rfl := Option.some.inj hserver
    refine ⟨_, ServerPath.parse_of_url hurl, rfl, fun other ↦ ?_⟩
    rw [hnames, placeWithin, Context.chosenNamespace, hcontext]
    rfl
  | group g =>
    obtain rfl := Option.some.inj hspace
    obtain rfl := Option.some.inj hserver
    have hname := (h.group g rfl).ne_empty
    have hchosen : context.chosenNamespace = some g.name := by
      rw [Context.chosenNamespace, hcontext]
      simp [Node.namespace?, hname]
    refine ⟨_, ServerPath.parse_of_url hurl, rfl, fun other ↦ ?_⟩
    rw [hnames, placeWithin, hchosen]
    rfl
  | controlPlane c =>
    obtain rfl := Option.some.inj hspace
    obtain rfl := Option.some.inj hserver
    obtain ⟨hgroup, hname⟩ := h.controlPlane c rfl
    obtain ⟨scheme, rest, hscheme, hrest, -⟩ := c.group.space.serverUrl_cases
    rw [Node.entrance, hrest] at hurl
    obtain ⟨longer, hlonger, horigin, hsegments⟩ := Url.parse_extend hscheme hurl h.query
      h.fragment (ServerPath.isPlain_route hgroup hname) (List.cons_ne_nil _ _)
    have hroute := ServerPath.ofUrl_route h.bare horigin hsegments
    refine ⟨ServerPath.ofUrl longer, ?_, ?_, fun other ↦ ?_⟩
    · rw [ControlPlane.serverUrl_eq, hrest]
      exact ServerPath.parse_of_url hlonger
    · rw [hroute]
    · rw [hroute, placeWithin]
      rfl

theorem Node.Legible.parse_server (h : node.Legible space) {server : String} {context : Context}
    (hserver : node.serverUrl? = some server) (hcontext : context.namespaceName = node.namespace?) :
    ∃ path, ServerPath.parse server = .ok path ∧
      (space.isCloud = true → path.base = space.serverUrl) ∧
      ∀ other, placeWithin other path context = node.within other := by
  obtain ⟨url, hreadable, hbase⟩ := h.readable
  obtain ⟨path, hpath, hsame, hplace⟩ := hreadable.parse_server hserver hcontext
  exact ⟨path, hpath, fun hcloud ↦ hsame.trans (hbase hcloud), hplace⟩

/-! ### Answers of the endpoint -/

/-- What asking the endpoint of a space comes to: a disconnected space makes itself known as it did
before, and one of an organization does not make itself known. -/
def Space.Answers (space : Space) : Except Failure Ingress → Prop
  | .ok ingress => ∃ cluster insecure user, space = disconnectedSpace ingress cluster insecure user
  | .error failure => space.isCloud = true ∧ (failure.isNotFound || failure.isUnauthorized) = true

/-! ### Entries that are the same -/

theorem Cluster.eq_of_same {a b : Cluster} (h : a.same b = true) :
    a.server = b.server ∧ a.authorityData = b.authorityData ∧
      a.skipVerification = b.skipVerification := by
  simp only [Cluster.same, Bool.and_eq_true, beq_iff_eq] at h
  obtain ⟨⟨⟨⟨⟨hserver, hauthority⟩, -⟩, hskip⟩, -⟩, -⟩ := h
  exact ⟨hserver, hauthority, hskip⟩

theorem Context.namespaceName_of_same {a b : Context} (h : a.same b = true) :
    a.namespaceName = b.namespaceName := by
  simp only [Context.same, Bool.and_eq_true, beq_iff_eq] at h
  exact h.1.1.2

/-- Users that are the same belong to one organization. -/
theorem Credential.organizationOf_of_same {a b : User} (h : a.same b = true) :
    organizationOf a = organizationOf b := by
  simp only [User.same, Bool.and_eq_true, beq_iff_eq] at h
  obtain ⟨⟨⟨⟨htoken, hplugin⟩, -⟩, -⟩, -⟩ := h
  have hargs : (a.plugin.bind fun plugin ↦ argumentOrganization plugin.args) =
      b.plugin.bind fun plugin ↦ argumentOrganization plugin.args := by
    cases hpluginA : a.plugin with
    | none =>
      cases hpluginB : b.plugin with
      | none => rfl
      | some plugin =>
        rw [hpluginA, hpluginB] at hplugin
        cases hplugin
    | some plugin =>
      cases hpluginB : b.plugin with
      | none =>
        rw [hpluginA, hpluginB] at hplugin
        cases hplugin
      | some other =>
        rw [hpluginA, hpluginB] at hplugin
        simp only [sameOption, Plugin.same, Bool.and_eq_true, beq_iff_eq] at hplugin
        simp only [Option.bind_some, hplugin.1.1.2]
  rw [organizationOf, organizationOf, htoken, hargs]

namespace Kubeconfig

variable {file : Kubeconfig} {preferred : String} {cluster : Cluster} {user : User}
  {namespaceName : Option String}

/-- The name of a file has the target of a kubeconfig with a single one. -/
theorem sameTarget_single_iff (hpreferred : preferred ≠ "") :
    Switch.sameTarget file preferred (single preferred cluster user namespaceName) preferred =
        true ↔
      ∃ target other, file.resolve preferred = .ok target ∧
        target.context.body.same { namespaceName } = true ∧ target.cluster.same cluster = true ∧
        target.user = some other ∧ other.same user = true := by
  rw [Switch.sameTarget, resolve_single hpreferred]
  cases file.resolve preferred with
  | error failure => simp
  | ok target =>
    simp only [Bool.and_eq_true, Except.ok.injEq, exists_and_left, exists_eq_left', and_assoc]
    cases huser : target.user with
    | none => simp [sameOption]
    | some other => simp [sameOption, Context.body]

end Kubeconfig

/-! ### The derived place -/

/-- A space that can stand for another one: with the same address, and trusted as far. -/
structure Space.Matches (space other : Space) : Prop where
  organization : other.isCloud = space.isCloud
  serverUrl : other.serverUrl = space.serverUrl
  cluster : ∀ server, other.cluster server = space.cluster server

section Trust

variable {m : Type → Type} {api : Api m} {target : Target} {server : String}

/-- The trust of a space is read off its cluster, if all endpoints are trusted only where it is. -/
theorem trusts_of_same (hskips : api.skipsVerification = true → space.insecure = true)
    (hsame : target.cluster.same (space.cluster server) = true) :
    api.trusts target = space.insecure := by
  rw [Api.trusts, (Cluster.eq_of_same hsame).2.2, Space.cluster]
  cases hinsecure : space.insecure with
  | true => simp
  | false =>
    cases hall : api.skipsVerification with
    | true =>
      rw [hskips hall] at hinsecure
      cases hinsecure
    | false => rfl

theorem matches_disconnected {ingress : Ingress} {cluster : Cluster} {insecure : Bool} {user : User}
    (hspace : space = disconnectedSpace ingress cluster insecure user)
    (hskips : api.skipsVerification = true → space.insecure = true)
    (hsame : target.cluster.same (space.cluster server) = true) (other : User) :
    space.Matches (disconnectedSpace ingress target.cluster (api.trusts target) other) := by
  rw [trusts_of_same hskips hsame]
  have hauthority := (Cluster.eq_of_same hsame).2.1
  subst hspace
  refine ⟨rfl, rfl, fun server' ↦ ?_⟩
  simp only [Space.cluster, disconnectedSpace] at hauthority ⊢
  rw [hauthority]
  cases insecure with
  | true => rfl
  | false => cases ingress.authorityData <;> rfl

theorem matches_cloud {path : ServerPath} {organization : Organization} {rest name : String}
    (hpath : ServerPath.parse target.cluster.server = .ok path)
    (horganization : space.organization = some organization)
    (hrest : space.serverUrl = "https" ++ "://" ++ rest) (hbase : path.base = space.serverUrl)
    (hskips : api.skipsVerification = true → space.insecure = true)
    (hsame : target.cluster.same (space.cluster server) = true) :
    space.Matches (cloudSpace organization name path target (api.trusts target)) := by
  have hauthority := (Cluster.eq_of_same hsame).2.1
  have hcloud : space.isCloud = true := by rw [Space.isCloud, horganization, Option.isSome_some]
  have hurl := ServerPath.https_ingress_eq_base_iff.2 ⟨rest, hbase.trans hrest⟩
  rw [trusts_of_same hskips hsame]
  refine ⟨hcloud.symm, ?_, fun server' ↦ ?_⟩
  · rw [Space.serverUrl_of_parse hpath rfl, hurl, hbase]
  · simp only [Space.cluster, cloudSpace] at hauthority ⊢
    rw [hauthority]
    cases space.insecure with
    | true => rfl
    | false => rfl

end Trust

/-- The target of a kubeconfig in which a place is the current target. -/
theorem Node.exists_target {file config : Kubeconfig} {preferred : String}
    (hspace : node.space? = some space) (hpreferred : preferred ≠ "")
    (hconfig : node.kubeconfig? preferred = some config) (hcurrent : file.current = preferred)
    (hsame : Switch.sameTarget file preferred config config.current = true) :
    ∃ target user server, node.serverUrl? = some server ∧ file.resolve preferred = .ok target ∧
      file.resolveCurrent = .ok target ∧
      target.context.body.same { namespaceName := node.namespace? } = true ∧
      target.cluster.same (space.cluster server) = true ∧ target.user = some user ∧
      user.same space.user = true := by
  obtain rfl := Option.some.inj (hconfig.symm.trans (Node.kubeconfig?_way hspace preferred))
  obtain ⟨target, user, hresolve, hbody, hcluster, huser, hsameUser⟩ :=
    (Kubeconfig.sameTarget_single_iff hpreferred).1 hsame
  have htarget : file.resolveCurrent = .ok target := by
    have hnonempty : file.current.isEmpty = false := by simpa [hcurrent] using hpreferred
    rw [Kubeconfig.resolveCurrent, hnonempty, if_neg Bool.false_ne_true, hcurrent, hresolve]
  exact ⟨target, user, _, Node.serverUrl?_way hspace, hresolve, htarget, hbody, hcluster, huser,
    hsameUser⟩

/-- When a place is the current target, a place in a matching space is derived, and that is the
current target as well. -/
theorem Node.Legible.exists_derived {σ : Type} {api : Api (StateM σ)} {file config : Kubeconfig}
    {preferred : String} (h : node.Legible space) (hpreferred : preferred ≠ "")
    (hskips : api.skipsVerification = true → space.insecure = true)
    (hconfig : node.kubeconfig? preferred = some config) (hcurrent : file.current = preferred)
    (hsame : Switch.sameTarget file preferred config config.current = true) (s : σ)
    (hanswers : ∀ target path, file.resolveCurrent = .ok target →
      ServerPath.parse target.cluster.server = .ok path →
      space.Answers
        (reply (api.ingress { target.cluster with server := path.base } target.user) s).1) :
    ∃ other last config', reply (derive api file) s = (.ok (node.within other), last) ∧
      other.isCloud = space.isCloud ∧ (node.within other).kubeconfig? preferred = some config' ∧
      Switch.sameTarget file preferred config' config'.current = true := by
  obtain ⟨target, user, server, hserver, hresolve, htarget, hbody, hcluster, huser, hsameUser⟩ :=
    Node.exists_target h.lies hpreferred hconfig hcurrent hsame
  have hnamespace : target.context.namespaceName = node.namespace? :=
    Context.namespaceName_of_same hbody
  obtain ⟨path, hpath, hbase, hplace⟩ := h.parse_server hserver hnamespace
  have hserver' : target.cluster.server = server := (Cluster.eq_of_same hcluster).1
  rw [← hserver'] at hpath
  have hanswer := hanswers target path htarget hpath
  -- Whatever is derived has the user of the file, so only its space is to be looked at.
  suffices hfound : ∃ other last, reply (derive api file) s = (.ok (node.within other), last) ∧
      space.Matches other ∧ other.user = user by
    obtain ⟨other, last, hderived, hmatches, hother⟩ := hfound
    refine ⟨other, last, _, hderived, hmatches.organization,
      Node.kubeconfig?_within h.lies hmatches.serverUrl hserver preferred, ?_⟩
    rw [hmatches.cluster, hother]
    exact (Kubeconfig.sameTarget_single_iff hpreferred).2
      ⟨target, user, hresolve, hbody, hcluster, huser, user.same_refl⟩
  rcases hreply : reply (api.ingress { target.cluster with server := path.base } target.user) s with
    ⟨failure | ingress, next⟩
  · rw [hreply] at hanswer
    obtain ⟨hcloud, hfailure⟩ := hanswer
    obtain ⟨organization, horganization⟩ := Option.isSome_iff_exists.1 hcloud
    obtain ⟨hcredential, rest, hrest⟩ := h.cloud organization horganization
    have hname : target.user.bind Credential.organizationOf = some organization.name := by
      rw [huser, Option.bind_some, Credential.organizationOf_of_same hsameUser, hcredential]
    have hderived := reply_derive_of_error htarget hpath hreply hfailure hname rfl
    rw [hplace] at hderived
    exact ⟨_, _, hderived, matches_cloud hpath horganization hrest (hbase hcloud) hskips hcluster,
      by rw [cloudSpace, huser]; rfl⟩
  · rw [hreply] at hanswer
    obtain ⟨cluster, insecure, owner, hspace⟩ := hanswer
    have hderived := reply_derive_of_ok htarget hpath hreply
    rw [hplace] at hderived
    exact ⟨_, next, hderived, matches_disconnected hspace hskips hcluster _, by rw [huser]; rfl⟩

theorem Node.isAcceptable_within {other : Space} (hspace : node.space? = some space)
    (hother : other.isCloud = space.isCloud) :
    (node.within other).isAcceptable = node.isAcceptable := by
  cases node with
  | root => rfl
  | organization o => rfl
  | space s =>
    obtain rfl := Option.some.inj hspace
    exact hother
  | group g => rfl
  | controlPlane c => rfl

/-! ### Accepting -/

namespace Switch.Committer

open Files Kubeconfig

variable {σ : Type} {c : Committer (StateM σ)} {s next : Desk × σ} {config file : Kubeconfig}
  {outcome : Outcome}

/-- A place is accepted by writing its kubeconfig. -/
theorem result_accept (hacceptable : node.isAcceptable = true)
    (hconfig : node.kubeconfig? c.preferred = some config) (s : Desk × σ) :
    AtDesk.result (node.accept c.writer) s =
      match AtDesk.result (c.write config) s with
      | (.ok (), next) => (.ok ("Kubeconfig context " ++ Text.quoted c.preferred ++
          " switched to: " ++ node.breadcrumbs), next)
      | (.error failure, next) => (.error failure, next) := by
  have hname : c.writer.name = c.preferred := rfl
  rw [Node.accept, hname, hacceptable, if_pos rfl, hconfig]
  simp only [AtDesk.result_bind]
  have hwrite : AtDesk.result (c.writer.write config) s = AtDesk.result (c.write config) s := rfl
  rw [hwrite]
  rcases AtDesk.result (c.write config) s with ⟨failure | _, next⟩
  · rfl
  · rfl

theorem accept_ok {message : String}
    (h : AtDesk.result (node.accept c.writer) s = (.ok message, next)) :
    ∃ config, node.isAcceptable = true ∧ node.kubeconfig? c.preferred = some config ∧
      AtDesk.result (c.write config) s = (.ok (), next) := by
  have hrefused : ∀ failure : Failure,
      AtDesk.result (throw failure : AtDesk (StateM σ) String) s = (.error failure, s) :=
    fun _ ↦ rfl
  have hname : c.writer.name = c.preferred := rfl
  cases hacceptable : node.isAcceptable with
  | false =>
    rw [Node.accept, hname, hacceptable, if_neg Bool.false_ne_true, hrefused] at h
    cases h
  | true =>
    cases hconfig : node.kubeconfig? c.preferred with
    | none =>
      rw [Node.accept, hname, hacceptable, if_pos rfl, hconfig, hrefused] at h
      cases h
    | some config =>
      rw [result_accept hacceptable hconfig] at h
      refine ⟨config, rfl, rfl, ?_⟩
      rcases hwrite : AtDesk.result (c.write config) s with ⟨failure | _, last⟩
      · rw [hwrite] at h
        cases h
      · rw [hwrite] at h
        cases h
        rfl

/-- A write that goes right had nothing to do, or saved what the merge came to. -/
theorem write_ok (hspares : c.SparesKubeconfig) (hload : c.store.load s.1.disk = .ok file)
    (hwrite : AtDesk.result (c.write config) s = (.ok (), next)) :
    (c.isCurrent file config = true ∧ next = s) ∨
      ∃ outcome, merge file config config.current c.preferred = .ok outcome ∧
        (outcome.config.ReadsBack → c.store.load next.1.disk = .ok outcome.config) := by
  rcases commit_of_write hload hwrite with hidle | ⟨outcome, verified, hmerge, -, hcommit⟩
  · exact Or.inl hidle
  · exact Or.inr ⟨outcome, hmerge, load_of_commit hspares hcommit⟩

/-- After a write that goes right the target of the kubeconfig is the current one. -/
theorem isCurrent_of_write (hpreferred : c.preferred ≠ "") (hspares : c.SparesKubeconfig)
    (hload : c.store.load s.1.disk = .ok file) (hcurrent : CurrentExists file)
    (hback : ∀ outcome, merge file config config.current c.preferred = .ok outcome →
      outcome.config.ReadsBack)
    (hwrite : AtDesk.result (c.write config) s = (.ok (), next)) :
    ∃ saved, c.store.load next.1.disk = .ok saved ∧ c.isCurrent saved config = true := by
  rcases write_ok hspares hload hwrite with ⟨hidle, rfl⟩ | ⟨outcome, hmerge, hsaved⟩
  · exact ⟨file, hload, hidle⟩
  · refine ⟨outcome.config, hsaved (hback outcome hmerge), ?_⟩
    obtain ⟨target, htarget, -⟩ := bind_eq_ok hmerge
    obtain ⟨outcome', number, hmerge', -, hadds, hnow, -⟩ := merge_ok hpreferred hcurrent htarget
    obtain rfl : outcome' = outcome := Except.ok.inj (hmerge'.symm.trans hmerge)
    rw [isCurrent_iff]
    exact ⟨hnow, sameTarget_of_meaning? hadds.added (meaning?_of_resolve htarget)⟩

theorem result_accept_of_isCurrent (hload : c.store.load s.1.disk = .ok file)
    (hacceptable : node.isAcceptable = true)
    (hconfig : node.kubeconfig? c.preferred = some config)
    (hcurrent : c.isCurrent file config = true) :
    ∃ message, AtDesk.result (node.accept c.writer) s = (.ok message, s) := by
  rw [result_accept hacceptable hconfig, result_write hload, if_pos hcurrent]
  exact ⟨_, rfl⟩

/-- Accepting a place asks what writing its kubeconfig asks. -/
theorem asked_accept (hload : c.store.load s.1.disk = .ok file)
    (hacceptable : node.isAcceptable = true)
    (hconfig : node.kubeconfig? c.preferred = some config) :
    c.asked (fun watched ↦ node.accept watched.writer) s = c.questions file config := by
  have hconfigNoting : node.kubeconfig? c.noting.preferred = some config := hconfig
  rw [← asked_write hload, asked, asked, result_accept hacceptable hconfigNoting]
  rcases AtDesk.result (c.noting.write config) (s.1, s.2, []) with ⟨failure | _, last⟩
  · rfl
  · rfl

/-- A place that was accepted is found again: what is derived from the kubeconfig then can be
accepted, which changes nothing, neither the files nor the pointer, and asks no verifier. -/
theorem accept_derived_idle (c : Committer (StateM σ)) (api : Api (StateM σ)) (node : Node)
    (space : Space) (file : Kubeconfig) (message : String) (s next : Desk × σ)
    (hpreferred : c.preferred ≠ "") (hspares : c.SparesKubeconfig) (hlegible : node.Legible space)
    (hskips : api.skipsVerification = true → space.insecure = true)
    (hload : c.store.load s.1.disk = .ok file) (hcurrent : CurrentExists file)
    (haccept : AtDesk.result (node.accept c.writer) s = (.ok message, next))
    (hback : ∀ config outcome, node.kubeconfig? c.preferred = some config →
      merge file config config.current c.preferred = .ok outcome → outcome.config.ReadsBack)
    (hanswers : ∀ saved target path, c.store.load next.1.disk = .ok saved →
      saved.resolveCurrent = .ok target → ServerPath.parse target.cluster.server = .ok path →
      space.Answers
        (reply (api.ingress { target.cluster with server := path.base } target.user) next.2).1) :
    ∃ saved derived last message', c.store.load next.1.disk = .ok saved ∧
      reply (derive api saved) next.2 = (.ok derived, last) ∧
      AtDesk.result (derived.accept c.writer) (next.1, last) = (.ok message', (next.1, last)) ∧
      c.asked (fun watched ↦ derived.accept watched.writer) (next.1, last) = [] := by
  obtain ⟨config, hacceptable, hconfig, hwrite⟩ := accept_ok haccept
  obtain ⟨saved, hsaved, hidle⟩ := isCurrent_of_write hpreferred hspares hload hcurrent
    (fun outcome ↦ hback config outcome hconfig) hwrite
  obtain ⟨hnow, hsame⟩ := isCurrent_iff.1 hidle
  obtain ⟨other, last, config', hderived, hcloud, hconfig', hsame'⟩ :=
    hlegible.exists_derived hpreferred hskips hconfig hnow hsame next.2
      fun target path ↦ hanswers saved target path hsaved
  have hacceptable' : (node.within other).isAcceptable = true :=
    (Node.isAcceptable_within hlegible.lies hcloud).trans hacceptable
  have hidle' : c.isCurrent saved config' = true := isCurrent_iff.2 ⟨hnow, hsame'⟩
  have hsavedThen : c.store.load (next.1, last).1.disk = .ok saved := hsaved
  obtain ⟨message', hresult⟩ :=
    result_accept_of_isCurrent hsavedThen hacceptable' hconfig' hidle'
  refine ⟨saved, node.within other, last, message', hsaved, hderived, hresult, ?_⟩
  rw [asked_accept hsavedThen hacceptable' hconfig', questions, if_pos hidle']

/-! ### A space at a host -/

/-- A disconnected space that makes itself known by a host. -/
def lone (host : String) : Space :=
  disconnectedSpace { host, authorityData := none } {} false {}

/-- A control plane in the space. -/
def plane (host : String) : Node :=
  .controlPlane { group := { space := lone host, name := "g" }, name := "c" }

/-- A source of answers that knows the space. -/
def hailing (host : String) : Api (StateM (Option String)) where
  skipsVerification := false
  organizations := pure []
  spaces _ := pure []
  groups _ := pure ["g"]
  controlPlanes _ := pure ["c"]
  ingress _ _ := pure { host, authorityData := none }

theorem answers_hailing (host : String) (cluster : Cluster) (user : Option User)
    (s : Option String) : (lone host).Answers (reply ((hailing host).ingress cluster user) s).1 :=
  ⟨{}, false, {}, rfl⟩

/-- The address of a host alone. -/
def hostUrl : Url where
  scheme := "https"
  authority := some { host := some (.domain "h"), port := none }
  path := .segments [""]
  query := none
  fragment := none

theorem isBare_hostUrl : ServerPath.IsBare hostUrl := by
  intro segment hsegment
  obtain rfl := List.mem_singleton.1 hsegment
  decide

theorem legible_plane : (plane "h").Legible (lone "h") where
  lies := rfl
  address := ⟨hostUrl, rfl, rfl, rfl, isBare_hostUrl, by rintro ⟨⟩⟩
  group g hg := by cases hg
  controlPlane c hc := by
    cases hc
    exact ⟨by decide, by decide⟩
  cloud organization horganization := by cases horganization

/-- What is saved for the control plane can be read back. -/
theorem readsBack_plane {config : Kubeconfig}
    (hconfig : (plane "h").kubeconfig? watchful.preferred = some config)
    (hmerge : merge {} config config.current watchful.preferred = .ok outcome) :
    outcome.config.ReadsBack := by
  have hchecked : ((plane "h").kubeconfig? watchful.preferred).all (fun config ↦
      (merge {} config config.current watchful.preferred).toOption.all fun outcome ↦
        decide outcome.config.ReadsBack) = true := by
    decide +kernel
  rw [hconfig, Option.all_some, hmerge] at hchecked
  exact of_decide_eq_true hchecked

/-- A control plane that is accepted, and found again. -/
theorem accept_derived_idle_plane :
    let s : Desk × Option String := ({ disk := {} }, none)
    ∃ message next, watchful.preferred ≠ "" ∧ watchful.SparesKubeconfig ∧
      (plane "h").Legible (lone "h") ∧ watchful.store.load s.1.disk = .ok {} ∧
      CurrentExists {} ∧
      AtDesk.result ((plane "h").accept watchful.writer) s = (.ok message, next) ∧
      ∃ saved derived last message', watchful.store.load next.1.disk = .ok saved ∧
        reply (derive (hailing "h") saved) next.2 = (.ok derived, last) ∧
        AtDesk.result (derived.accept watchful.writer) (next.1, last) =
          (.ok message', (next.1, last)) ∧
        watchful.asked (fun watched ↦ derived.accept watched.writer) (next.1, last) = [] := by
  intro s
  have hpreferred : watchful.preferred ≠ "" := by decide
  have hspares : watchful.SparesKubeconfig := fun _ _ _ h ↦ h
  have hskips : (hailing "h").skipsVerification = true → (lone "h").insecure = true := by decide
  have hload : watchful.store.load s.1.disk = .ok {} := rfl
  have hcurrent : CurrentExists {} := Or.inl rfl
  obtain ⟨message, next, hresult⟩ : ∃ message next,
      AtDesk.result ((plane "h").accept watchful.writer) s = (.ok message, next) :=
    AtDesk.exists_of_isOk (by decide +kernel)
  exact ⟨message, next, hpreferred, hspares, legible_plane, hload, hcurrent, hresult,
    accept_derived_idle watchful (hailing "h") (plane "h") (lone "h") {} message s next hpreferred
      hspares legible_plane hskips hload hcurrent hresult (fun _ _ ↦ readsBack_plane)
      fun _ _ _ _ _ _ ↦ answers_hailing "h" _ _ _⟩

/-! ### A space at an address that nothing can follow -/

/-- A host with a path behind it that ends in a step up and a space. At the end of an address the
space is taken off and the step is made; with more behind it both are kept. -/
def slippery : String := "h/namespaces/.. "

/-- The target that leads to the control plane there. -/
def slipperyTarget : Target where
  name := "p"
  context := { cluster := "p", user := "p", namespaceName := some "default" }
  cluster :=
    { server := "https://h/namespaces/.. /apis/spaces.upbound.io/v1beta1/namespaces/g/" ++
        "controlplanes/c/k8s" }
  user := some {}

/-- What is saved for it. -/
def slipperyFile : Kubeconfig := single "p" slipperyTarget.cluster {} (some "default")

/-- What is derived from that. -/
def slipped : Node := .group { space := lone slippery, name := "..%20" }

theorem reply_derive_slipperyFile (t : Option String) :
    reply (derive (hailing slippery) slipperyFile) t = (.ok slipped, t) := by
  have htarget : slipperyFile.resolveCurrent = .ok slipperyTarget := rfl
  have hpath : ServerPath.parse slipperyTarget.cluster.server =
      .ok { base := "https://h/namespaces/..%20", group := some "..%20", controlPlane := none } :=
    rfl
  exact reply_derive_of_ok htarget hpath rfl

/-- It is not enough that the address of the space is fit by itself: a control plane there is
accepted, another place is derived, and accepting that asks the verifier again. -/
theorem accept_derived_strays :
    let s : Desk × Option String := ({ disk := {} }, none)
    watchful.preferred ≠ "" ∧ CurrentExists {} ∧ watchful.store.load s.1.disk = .ok {} ∧
      (plane slippery).space? = some (lone slippery) ∧ (lone slippery).isCloud = false ∧
      (∀ c, plane slippery = .controlPlane c →
        IsResourceName c.group.name ∧ IsResourceName c.name) ∧
      (∃ url, Url.parse (lone slippery).serverUrl = .ok url ∧ url.query = none ∧
        url.fragment = none ∧ ServerPath.IsBare url) ∧
      (hailing slippery).skipsVerification = false ∧
      (∀ cluster user t,
        (lone slippery).Answers (reply ((hailing slippery).ingress cluster user) t).1) ∧
      ∃ message next saved derived last,
        AtDesk.result ((plane slippery).accept watchful.writer) s = (.ok message, next) ∧
        saved.ReadsBack ∧ watchful.store.load next.1.disk = .ok saved ∧
        reply (derive (hailing slippery) saved) next.2 = (.ok derived, last) ∧
        watchful.asked (fun watched ↦ derived.accept watched.writer) (next.1, last) ≠ [] := by
  intro s
  have hspares : watchful.SparesKubeconfig := fun _ _ _ h ↦ h
  have hload : watchful.store.load s.1.disk = .ok {} := rfl
  have hconfig : (plane slippery).kubeconfig? watchful.preferred = some slipperyFile := by
    decide +kernel
  have hmerge : merge {} slipperyFile slipperyFile.current watchful.preferred =
      .ok { config := slipperyFile, last := "" } := rfl
  have hback : slipperyFile.ReadsBack := by decide +kernel
  have hquestions : ∃ config, slipped.kubeconfig? watchful.preferred = some config ∧
      watchful.questions slipperyFile config ≠ [] := by
    refine ⟨_, rfl, ?_⟩
    decide +kernel
  have hnames : ∀ c, plane slippery = .controlPlane c →
      IsResourceName c.group.name ∧ IsResourceName c.name := by
    rintro c ⟨⟩
    exact ⟨by decide, by decide⟩
  obtain ⟨message, next, hresult⟩ : ∃ message next,
      AtDesk.result ((plane slippery).accept watchful.writer) s = (.ok message, next) :=
    AtDesk.exists_of_isOk (by decide +kernel)
  obtain ⟨config, -, hconfig', hwrite⟩ := accept_ok hresult
  obtain rfl : slipperyFile = config := Option.some.inj (hconfig.symm.trans hconfig')
  have hsaved : watchful.store.load next.1.disk = .ok slipperyFile := by
    rcases write_ok hspares hload hwrite with ⟨hidle, -⟩ | ⟨outcome, hmerge', hsaved⟩
    · cases hidle
    · obtain rfl := Except.ok.inj (hmerge.symm.trans hmerge')
      exact hsaved hback
  obtain ⟨config, hconfig, hquestions⟩ := hquestions
  refine ⟨by decide, Or.inl rfl, hload, rfl, rfl, hnames,
    ⟨hostUrl, rfl, rfl, rfl, isBare_hostUrl⟩, rfl, answers_hailing slippery, message, next,
    slipperyFile, slipped, next.2, hresult, hback, hsaved, reply_derive_slipperyFile next.2, ?_⟩
  rw [asked_accept hsaved rfl hconfig]
  exact hquestions

end Switch.Committer

end Wayfinder
