import Wayfinder.Proofs.Returning

/-!
Listed spaces that are recognized when a place in them is derived. Main statement: the derived space
has the name of the listed one if that is listed without a scheme and in the normal form of its
address; else it has the name only by coincidence (`derive_recognizes_iff`, with
`derive_overlooks` for spaces in other spellings).
-/

set_option autoImplicit false
set_option relaxedAutoImplicit false

namespace Wayfinder

/-! ### Names of listed spaces -/

/-- A space is listed under the endpoint of a server: but for slashes at its end, as that is known
without its scheme. -/
def Space.IsListedAt (space : Space) (path : ServerPath) : Prop :=
  dropSlashes space.ingress = path.ingress

section Listed

variable {spaces : List Space} {space listed : Space} {path : ServerPath}

theorem listedName_of_isListedAt (hdistinct : (spaces.map Space.serverUrl).Nodup)
    (hlisted : listed ∈ spaces) (hat : listed.IsListedAt path) :
    listedName spaces path = listed.name := by
  rw [listedName]
  cases hfind : spaces.find? fun s ↦ dropSlashes s.ingress == path.ingress with
  | none => exact absurd (beq_iff_eq.2 hat) (List.find?_eq_none.1 hfind listed hlisted)
  | some found =>
    have hbeq := List.find?_some hfind
    have hfound : found.IsListedAt path := beq_iff_eq.1 hbeq
    have hurl := Space.serverUrl_congr (hfound.trans hat.symm)
    rw [List.inj_on_of_nodup_map hdistinct (List.mem_of_find?_eq_some hfind) hlisted hurl]

theorem listedName_of_forall (h : ∀ listed ∈ spaces, ¬ listed.IsListedAt path) :
    listedName spaces path = path.ingress := by
  have hfind : spaces.find? (fun s ↦ dropSlashes s.ingress == path.ingress) = none :=
    List.find?_eq_none.2 fun listed hlisted hbeq ↦ h listed hlisted (beq_iff_eq.1 hbeq)
  rw [listedName, hfind]

/-- A space has the name of another one: of a space that is listed in its place, or of the endpoint,
if none is. -/
def Coincides (spaces : List Space) (space : Space) (path : ServerPath) : Prop :=
  (∃ namesake ∈ spaces, namesake.serverUrl ≠ space.serverUrl ∧ namesake.IsListedAt path ∧
    namesake.name = space.name) ∨
  (∀ listed ∈ spaces, ¬ listed.IsListedAt path) ∧ path.ingress = space.name

theorem listedName_eq_iff (hdistinct : (spaces.map Space.serverUrl).Nodup)
    (hspace : space ∈ spaces) :
    listedName spaces path = space.name ↔ space.IsListedAt path ∨ Coincides spaces space path := by
  by_cases hat : space.IsListedAt path
  · exact iff_of_true (listedName_of_isListedAt hdistinct hspace hat) (Or.inl hat)
  · rw [or_iff_right hat]
    by_cases hnone : ∀ listed ∈ spaces, ¬ listed.IsListedAt path
    · rw [listedName_of_forall hnone]
      refine ⟨fun hname ↦ Or.inr ⟨hnone, hname⟩, ?_⟩
      rintro (⟨namesake, hnamesake, -, hlisted, -⟩ | ⟨-, hname⟩)
      · exact absurd hlisted (hnone namesake hnamesake)
      · exact hname
    · simp only [not_forall, not_not] at hnone
      obtain ⟨listed, hlisted, hlistedAt⟩ := hnone
      rw [listedName_of_isListedAt hdistinct hlisted hlistedAt]
      constructor
      · intro hname
        refine Or.inl ⟨listed, hlisted, fun hurl ↦ hat ?_, hlistedAt, hname⟩
        have hsame : listed = space := List.inj_on_of_nodup_map hdistinct hlisted hspace hurl
        exact hsame ▸ hlistedAt
      · rintro (⟨namesake, hnamesake, -, hnamesakeAt, hname⟩ | ⟨hnone, -⟩)
        · have hurl := Space.serverUrl_congr (hlistedAt.trans hnamesakeAt.symm)
          rw [List.inj_on_of_nodup_map hdistinct hlisted hnamesake hurl, hname]
        · exact absurd hlistedAt (hnone listed hlisted)

end Listed

/-! ### Spellings that are recognized -/

/-- A space is listed under the endpoint of its own address if it is listed without a scheme and in
the normal form. -/
theorem Space.isListedAt_iff {space : Space} {path : ServerPath} {rest : String}
    (hpath : ServerPath.parse (space.serverUrl ++ rest) = .ok path) :
    space.IsListedAt path ↔
      IsSchemeless (dropSlashes space.ingress) ∧ space.serverUrl = path.base := by
  constructor
  · intro hat
    have hschemeless : IsSchemeless (dropSlashes space.ingress) := by
      rw [hat]
      exact (ServerPath.ingress_of_parse hpath).2
    have hurl := serverUrl_of_isSchemeless hschemeless
    rw [hurl, String.append_assoc] at hpath
    refine ⟨hschemeless, ?_⟩
    rw [ServerPath.base_of_web (Or.inl rfl) hpath, hurl, hat]
  · rintro ⟨hschemeless, hbase⟩
    rw [IsListedAt, ServerPath.ingress, ← hbase, serverUrl_of_isSchemeless hschemeless,
      dropScheme_https]

/-! ### The recognized place -/

/-- Breadcrumbs begin with those of the space. -/
theorem Node.exists_breadcrumbs {node : Node} {space : Space} (hspace : node.space? = some space) :
    ∃ rest, node.breadcrumbs = space.breadcrumbs ++ rest ∧
      ∀ other, (node.within other).breadcrumbs = other.breadcrumbs ++ rest := by
  cases node with
  | root => cases hspace
  | organization o => cases hspace
  | space s =>
    obtain rfl := Option.some.inj hspace
    exact ⟨"", String.append_empty.symm, fun other ↦ String.append_empty.symm⟩
  | group g =>
    obtain rfl := Option.some.inj hspace
    exact ⟨"/" ++ g.name, String.append_assoc, fun other ↦ String.append_assoc⟩
  | controlPlane c =>
    obtain rfl := Option.some.inj hspace
    have hsplit : ∀ start : String, start ++ "/" ++ c.group.name ++ "/" ++ c.name =
        start ++ ("/" ++ c.group.name ++ "/" ++ c.name) := fun start ↦ by
      simp only [String.append_assoc]
    exact ⟨_, hsplit _, fun other ↦ hsplit _⟩

theorem Node.breadcrumbs_within_iff {node : Node} {space other : Space}
    {organization : Organization} (hspace : node.space? = some space)
    (horganization : space.organization = some organization)
    (hother : other.organization = some organization) :
    (node.within other).breadcrumbs = node.breadcrumbs ↔ other.name = space.name := by
  obtain ⟨rest, hnode, hwithin⟩ := Node.exists_breadcrumbs hspace
  rw [hnode, hwithin, String.append_left_inj, Space.breadcrumbs, Space.breadcrumbs, hother,
    horganization]
  exact String.append_right_inj _

section Recognize

variable {σ : Type}

/-- When a place in a listed space is the current target, and its endpoint does not make itself
known, a place in a space of the same organization is derived. That space has the name of the listed
one exactly if the listed one has no scheme and the normal form of its address, or by coincidence. A
place with an address that can be told apart then has its breadcrumbs again. -/
theorem derive_recognizes_iff (api : Api (StateM σ)) (organization : Organization)
    (spaces : List Space) (space : Space) (node : Node) (path : ServerPath) (preferred : String)
    (file config : Kubeconfig) (s next last : σ) (hpreferred : preferred ≠ "")
    (hdistinct : (spaces.map Space.serverUrl).Nodup) (hlisted : space ∈ spaces)
    (horganization : space.organization = some organization)
    (hcredentials : Credential.organizationOf space.user = some organization.name)
    (hspace : node.space? = some space)
    (hpath : ServerPath.parse (space.serverUrl ++ node.way) = .ok path)
    (hconfig : node.kubeconfig? preferred = some config) (hcurrent : file.current = preferred)
    (hsame : Switch.sameTarget file preferred config config.current = true)
    (hunknown : ∀ target, file.resolveCurrent = .ok target →
      ∃ failure, reply (api.ingress { target.cluster with server := path.base } target.user) s =
        (.error failure, next) ∧ (failure.isNotFound || failure.isUnauthorized) = true)
    (hlisting : reply (api.spaces organization) next = (.ok spaces, last)) :
    ∃ derived other, reply (derive api file) s = (.ok derived, last) ∧
      derived.space? = some other ∧ other.organization = some organization ∧
      (other.name = space.name ↔
        IsSchemeless (dropSlashes space.ingress) ∧ space.serverUrl = path.base ∨
          Coincides spaces space path) ∧
      ∀ url, node.Readable space url →
        derived = node.within other ∧
          (derived.breadcrumbs = node.breadcrumbs ↔ other.name = space.name) := by
  obtain ⟨target, user, server, hserver, -, htarget, hbody, hcluster, huser, hsameUser⟩ :=
    Node.exists_target hspace hpreferred hconfig hcurrent hsame
  obtain rfl := Option.some.inj (hserver.symm.trans (Node.serverUrl?_way hspace))
  have hparse : ServerPath.parse target.cluster.server = .ok path := by
    rw [(Cluster.eq_of_same hcluster).1, ← hpath]
    rfl
  obtain ⟨failure, hanswer, hrefused⟩ := hunknown target htarget
  have hname : target.user.bind Credential.organizationOf = some organization.name := by
    rw [huser, Option.bind_some, Credential.organizationOf_of_same hsameUser, hcredentials]
  have hderived := reply_derive_of_error htarget hparse hanswer hrefused hname
    (reply_cloudSpaceName hlisting path)
  refine ⟨_, _, hderived, Node.space?_placeWithin _ _ _, rfl, ?_, fun url hreadable ↦ ?_⟩
  · rw [← Space.isListedAt_iff hpath]
    exact listedName_eq_iff hdistinct hlisted
  · have hnamespace : target.context.namespaceName = node.namespace? :=
      Context.namespaceName_of_same hbody
    obtain ⟨read, hread, -, hplace⟩ := hreadable.parse_server hserver hnamespace
    obtain rfl := Except.ok.inj (hread.symm.trans hpath)
    refine ⟨hplace _, ?_⟩
    rw [hplace]
    exact Node.breadcrumbs_within_iff hspace horganization rfl

/-- The kubeconfig of a place has it as its current target. -/
theorem Node.current_of_kubeconfig? {node : Node} {space : Space} {preferred : String}
    {config : Kubeconfig} (hspace : node.space? = some space) (hpreferred : preferred ≠ "")
    (hconfig : node.kubeconfig? preferred = some config) :
    config.current = preferred ∧
      Switch.sameTarget config preferred config config.current = true := by
  obtain rfl := Option.some.inj (hconfig.symm.trans (Node.kubeconfig?_way hspace preferred))
  exact ⟨rfl, (Kubeconfig.sameTarget_single_iff hpreferred).2
    ⟨_, _, Kubeconfig.resolve_single hpreferred _ _ _, Context.same_refl _, Cluster.same_refl _,
      rfl, User.same_refl _⟩⟩

/-- A space as an organization lists it. -/
def listedSpace (ingress : String) : Space where
  organization := some { name := "o" }
  name := "n"
  ingress
  authorityData := none
  insecure := false
  user := resident

/-- A space that is listed with slashes at its end. -/
def slashed : Space := listedSpace "h//"

/-- A group of it. -/
def slashedGroup : Node := .group { space := slashed, name := "g" }

theorem serverUrl_slashed : slashed.serverUrl = "https://h" := by decide

theorem readable_slashedGroup : slashedGroup.Readable slashed Switch.Committer.hostUrl where
  lies := rfl
  address := by
    have hentrance : slashedGroup.entrance slashed = slashed.serverUrl := rfl
    rw [hentrance, serverUrl_slashed]
    rfl
  query := rfl
  fragment := rfl
  bare := Switch.Committer.isBare_hostUrl
  group := by
    rintro g ⟨⟩
    decide
  controlPlane := by rintro c ⟨⟩

/-- The group of that space has its breadcrumbs again. -/
theorem derive_recognizes_iff_slashed :
    ∃ config derived other, slashedGroup.kubeconfig? "p" = some config ∧
      reply (derive (listing [slashed]) config) () = (.ok derived, ()) ∧
      derived.space? = some other ∧ other.name = "n" ∧ derived.breadcrumbs = "/o/n/g" := by
  have hpreferred : "p" ≠ "" := by decide
  have hpath : ServerPath.parse (slashed.serverUrl ++ slashedGroup.way) =
      .ok { base := "https://h", group := none, controlPlane := none } := by
    rw [serverUrl_slashed]
    rfl
  obtain ⟨config, hconfig⟩ : ∃ config, slashedGroup.kubeconfig? "p" = some config := ⟨_, rfl⟩
  obtain ⟨hcurrent, hsame⟩ := Node.current_of_kubeconfig? rfl hpreferred hconfig
  obtain ⟨derived, other, hderived, hspace, -, hname, hplace⟩ :=
    derive_recognizes_iff (listing [slashed]) { name := "o" } [slashed] slashed slashedGroup _ "p"
      config config () () () hpreferred (List.nodup_singleton _) List.mem_cons_self rfl rfl rfl
      hpath hconfig hcurrent hsame (fun _ _ ↦ ⟨_, rfl, rfl⟩) rfl
  have hat : dropSlashes slashed.ingress = ServerPath.ingress
      { base := "https://h", group := none, controlPlane := none } := by decide
  have hschemeless : IsSchemeless (dropSlashes slashed.ingress) := by
    rw [hat]
    exact (ServerPath.ingress_of_parse hpath).2
  have hrecognized : other.name = slashed.name := hname.2 (Or.inl ⟨hschemeless, serverUrl_slashed⟩)
  exact ⟨config, derived, other, hconfig, hderived, hspace, hrecognized,
    (hplace _ readable_slashedGroup).2.2 hrecognized⟩

/-- A listed space from which another name is derived. -/
def Overlooked (ingress : String) : Prop :=
  (listedSpace ingress).name = "n" ∧
    ∃ config derived other, (Node.space (listedSpace ingress)).kubeconfig? "p" = some config ∧
      reply (derive (listing [listedSpace ingress]) config) () = (.ok derived, ()) ∧
      derived.space? = some other ∧ other.name = "h"

theorem overlooked_of_ne {ingress server : String}
    (hserver : (listedSpace ingress).serverUrl = server)
    (hpath : ServerPath.parse server =
      .ok { base := "https://h", group := none, controlPlane := none })
    (hne : dropSlashes ingress ≠ "h") : Overlooked ingress := by
  have hderived :=
    reply_derive_resident ((listedSpace ingress).cluster server) hpath rfl [listedSpace ingress]
  subst hserver
  refine ⟨rfl, _, _, _, rfl, hderived, Node.space?_placeWithin _ _ _, ?_⟩
  refine listedName_of_forall fun listed hlisted ↦ ?_
  obtain rfl := List.mem_singleton.1 hlisted
  exact hne

/-- A scheme, a letter case and a port that make no difference to the address of a space hide it
from the listing. -/
theorem derive_overlooks : Overlooked "https://h" ∧ Overlooked "H" ∧ Overlooked "h:443" := by
  have hscheme : (listedSpace "https://h").serverUrl = "https://h" := by decide
  have hcase : (listedSpace "H").serverUrl = "https://H" := by decide
  have hport : (listedSpace "h:443").serverUrl = "https://h:443" := by decide
  exact ⟨overlooked_of_ne hscheme rfl (by decide), overlooked_of_ne hcase rfl (by decide),
    overlooked_of_ne hport rfl (by decide)⟩

end Recognize

end Wayfinder
