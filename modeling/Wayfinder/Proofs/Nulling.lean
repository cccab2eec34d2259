import Wayfinder.Proofs.Carrying

/-!
Lists that are written as null. A list of the kubeconfig itself may be: it is read as if nothing
stood there. A list of a credential plugin may not.

Main statement: put null into a tree that is read, wherever a list may stand and there is none or an
empty one, in any of these places at once (`Kubeconfig.Nulls`). The new tree is read as the same
kubeconfig if no credential plugin has null for a list, and otherwise it is not read at all
(`Kubeconfig.ofTree?_nulled_iff`).
-/

set_option autoImplicit false
set_option relaxedAutoImplicit false

namespace Wayfinder

variable {α : Type} {t t' u : Tree} {m m' : Members} {name : String} {names : List String}
  {R : String → Option Tree → Tree → Prop}

/-- A null that is written down; nothing at all is also an empty list. -/
def Tree.IsNull (t : Tree) : Prop := t.present? = some false ∧ t.items? = none

/-- No list, or one without items. -/
def NoItems (o : Option Tree) : Prop := ∀ u, o = some u → u.items? = some []

/-! ### Members that differ under some keys -/

namespace Members

/-- What stands under a key. -/
def under (m : Members) (name : String) : List Tree :=
  (m.filter fun e ↦ e.1 == name).map (·.2)

theorem read?_eq_under (m : Members) (name : String) (absent : Option α)
    (read : Tree → Option α) :
    m.read? name absent read =
      match m.under name with
      | [] => absent
      | [u] => read u
      | _ => none := by
  rw [read?, under]
  generalize m.filter (fun e ↦ e.1 == name) = found
  rcases found with _ | ⟨e, _ | ⟨e', rest⟩⟩ <;> rfl

theorem read?_congr (h : m'.under name = m.under name) (absent : Option α)
    (read : Tree → Option α) : m'.read? name absent read = m.read? name absent read := by
  rw [read?_eq_under, h, ← read?_eq_under]

theorem read?_of_under {o : Option Tree} (h : m.under name = o.toList) (absent : Option α)
    (read : Tree → Option α) : m.read? name absent read = o.elim absent read := by
  rw [read?_eq_under, h]
  cases o <;> rfl

/-- Members differ only under some keys, and there by single trees that stand in a relation to what
stood there. -/
structure Alters (names : List String) (R : String → Option Tree → Tree → Prop)
    (m m' : Members) : Prop where
  others : m'.filter (fun e ↦ !names.contains e.1) = m.filter fun e ↦ !names.contains e.1
  named : ∀ name ∈ names, m'.under name = m.under name ∨
    ∃ o u, m.under name = o.toList ∧ m'.under name = [u] ∧ R name o u

namespace Alters

theorem filter_eq (h : Alters names R m m') {p : String → Bool}
    (hp : ∀ name, p name = true → name ∉ names) :
    m'.filter (fun e ↦ p e.1) = m.filter fun e ↦ p e.1 := by
  have hsplit : ∀ l : Members, l.filter (fun e ↦ p e.1) =
      (l.filter fun e ↦ !names.contains e.1).filter fun e ↦ p e.1 := by
    intro l
    rw [List.filter_filter]
    refine List.filter_congr fun e _ ↦ ?_
    cases hpe : p e.1 with
    | false => rfl
    | true => simp [hp e.1 hpe]
  rw [hsplit, h.others, ← hsplit]

theorem under_eq (h : Alters names R m m') (hname : name ∉ names) :
    m'.under name = m.under name := by
  have hfilter := h.filter_eq (p := (· == name)) fun key hkey ↦ (beq_iff_eq.1 hkey) ▸ hname
  rw [under, hfilter, under]

theorem read?_eq (h : Alters names R m m') (hname : name ∉ names) (absent : Option α)
    (read : Tree → Option α) : m'.read? name absent read = m.read? name absent read :=
  read?_congr (h.under_eq hname) absent read

theorem others?_eq {keys : List String} (h : Alters names R m m') (hkeys : names ⊆ keys) :
    m'.others? keys = m.others? keys := by
  have hfilter := h.filter_eq (p := fun name ↦ !keys.contains name) fun name hname hmem ↦ by
    simp [hkeys hmem] at hname
  rw [others?, hfilter, others?]

/-- Under each key stands what stood there, or something else that is related to it. -/
theorem under_cases (h : Alters names R m m') (name : String) :
    m'.under name = m.under name ∨
      name ∈ names ∧ ∃ o u, m.under name = o.toList ∧ m'.under name = [u] ∧ R name o u := by
  by_cases hname : name ∈ names
  · exact (h.named name hname).imp_right fun hnew ↦ ⟨hname, hnew⟩
  · exact Or.inl (h.under_eq hname)

/-- What was read under a key is read again, if it is where something else stands. -/
theorem read? (h : Alters names R m m') {absent : Option α} {read : Tree → Option α} {a : α}
    (hread : m.read? name absent read = some a)
    (hnew : ∀ o u, name ∈ names → m'.under name = [u] → R name o u →
      o.elim absent read = some a → read u = some a) :
    m'.read? name absent read = some a := by
  rcases h.under_cases name with hunder | ⟨hname, o, u, hold, hunder, hrelated⟩
  · exact (read?_congr hunder absent read).trans hread
  · rw [read?_of_under hold] at hread
    exact (read?_of_under (o := some u) hunder absent read).trans
      (hnew o u hname hunder hrelated hread)

end Alters

end Members

namespace Tree

theorem key?_of_under (hmembers : t.members? = some m) (hunder : m.under name = [u]) :
    t.key? name = some u := by
  rw [key?_eq hmembers, ← List.getLast?_map]
  exact congrArg List.getLast? hunder

/-- A table has the members of another tree, but for what stands under some keys. -/
def Alters (names : List String) (R : String → Option Tree → Tree → Prop) (t t' : Tree) : Prop :=
  ∃ m m' tag entries, t.members? = some m ∧ t' = .table tag entries ∧ t'.members? = some m' ∧
    Members.Alters names R m m'

/-- A table that is altered has members if the other tree has. -/
theorem Alters.members (h : Alters names R t t') (hmembers : t.members? = some m) :
    ∃ m', t'.members? = some m' ∧ Members.Alters names R m m' := by
  obtain ⟨old, m', tag, entries, hold, -, hmembers', halters⟩ := h
  obtain rfl : old = m := Option.some.inj (hold.symm.trans hmembers)
  exact ⟨m', hmembers', halters⟩

theorem Alters.present? (h : Alters names R t t') : t'.present? = some true := by
  obtain ⟨m, m', tag, entries, -, rfl, -⟩ := h
  rfl

theorem list?_eq_none_of_isNull (h : t.IsNull) (read : Tree → Option α) :
    list? read t = none := by
  rw [list?, h.2, Option.bind_none]

theorem optional_of_isNull (h : t.IsNull) (read : Tree → Option α) :
    optional read t = some none := by
  rw [optional, h.1]

theorem optional_of_present (h : t.present? = some true) (read : Tree → Option α) :
    optional read t = (read t).map some := by
  rw [optional, h]

end Tree

/-! ### Credential plugins -/

namespace Plugin

variable {p : Plugin}

/-- A credential plugin has null for one of its lists. -/
def HasNullList (t : Tree) : Prop :=
  ∃ name ∈ ["args", "env"], ∃ u, t.key? name = some u ∧ u.IsNull

/-- A credential plugin differs from another one by null for empty lists. -/
def Nulls (t t' : Tree) : Prop :=
  Tree.Alters ["args", "env"] (fun _ o u ↦ NoItems o ∧ u.IsNull) t t'

theorem ofTree?_eq_none (h : HasNullList t) : ofTree? t = none := by
  obtain ⟨name, hname, u, hkey, hnull⟩ := h
  refine Option.eq_none_iff_forall_ne_some.2 fun p hp ↦ ?_
  obtain ⟨m, hmembers, -, -, hargs, henv, -⟩ := ofTree?_eq_some_iff.1 hp
  rcases List.mem_pair.1 hname with rfl | rfl
  · simpa [Tree.list?_eq_none_of_isNull hnull] using Members.read_of_key hmembers hargs hkey
  · simpa [Tree.list?_eq_none_of_isNull hnull] using Members.read_of_key hmembers henv hkey

theorem ofTree?_of_nulls (h : ofTree? t = some p) (hnulls : Nulls t t')
    (hclear : ¬ HasNullList t') : ofTree? t' = some p := by
  obtain ⟨m, hmembers, hversion, hcommand, hargs, henv, hextra⟩ := ofTree?_eq_some_iff.1 h
  obtain ⟨m', hmembers', halters⟩ := hnulls.members hmembers
  have hnew : ∀ name u, name ∈ ["args", "env"] → Members.under m' name = [u] → ¬ u.IsNull :=
    fun name u hname hunder hnull ↦
      hclear ⟨name, hname, u, Tree.key?_of_under hmembers' hunder, hnull⟩
  exact ofTree?_eq_some_iff.2 ⟨m', hmembers',
    (halters.read?_eq (by decide) _ _).trans hversion,
    (halters.read?_eq (by decide) _ _).trans hcommand,
    halters.read? hargs fun _ u hname hunder hnull _ ↦ absurd hnull.2 (hnew _ u hname hunder),
    halters.read? henv fun _ u hname hunder hnull _ ↦ absurd hnull.2 (hnew _ u hname hunder),
    (halters.others?_eq (by decide)).trans hextra⟩

end Plugin

/-! ### Users -/

namespace User

variable {user : User}

/-- The credential plugin of a user has null for one of its lists. -/
def HasNullList (t : Tree) : Prop := ∃ u, t.key? "exec" = some u ∧ Plugin.HasNullList u

/-- A user differs from another one by null for empty lists of the credential plugin. -/
def Nulls (t t' : Tree) : Prop :=
  Tree.Alters ["exec"] (fun _ o u ↦ ∃ plugin, o = some plugin ∧ plugin.present? = some true ∧
    Plugin.Nulls plugin u) t t'

theorem ofTree?_eq_none (h : HasNullList t) : ofTree? t = none := by
  obtain ⟨u, hkey, hnull⟩ := h
  have hpresent : u.present? ≠ some false := by
    obtain ⟨name, -, v, hv, -⟩ := hnull
    exact Tree.present?_of_key? hv
  refine Option.eq_none_iff_forall_ne_some.2 fun user huser ↦ ?_
  obtain ⟨m, hmembers, -, hexec, -⟩ := ofTree?_eq_some_iff.1 huser
  obtain ⟨plugin, -, hplugin⟩ := Members.exists_of_optional_key hmembers hexec hkey hpresent
  simp [Plugin.ofTree?_eq_none hnull] at hplugin

theorem ofTree?_of_nulls (h : ofTree? t = some user) (hnulls : Nulls t t')
    (hclear : ¬ HasNullList t') : ofTree? t' = some user := by
  obtain ⟨m, hmembers, htoken, hexec, hcertificate, hkey, hextra⟩ := ofTree?_eq_some_iff.1 h
  obtain ⟨m', hmembers', halters⟩ := hnulls.members hmembers
  refine ofTree?_eq_some_iff.2 ⟨m', hmembers',
    (halters.read?_eq (by decide) _ _).trans htoken,
    halters.read? hexec ?_,
    (halters.read?_eq (by decide) _ _).trans hcertificate,
    (halters.read?_eq (by decide) _ _).trans hkey,
    (halters.others?_eq (by decide)).trans hextra⟩
  -- Only the plugin is another one, and it is read as the old one was.
  rintro _ u - hunder ⟨plugin, rfl, hpresent, hplugin⟩ hold
  rw [Option.elim_some, Tree.optional_of_present hpresent] at hold
  obtain ⟨p, hp, hsome⟩ := Option.map_eq_some_iff.1 hold
  have hsame := Plugin.ofTree?_of_nulls hp hplugin fun hnull ↦
    hclear ⟨u, Tree.key?_of_under hmembers' hunder, hnull⟩
  rw [Tree.optional_of_present hplugin.present?, hsame, Option.map_some, hsome]

end User

namespace Kubeconfig

variable {config : Kubeconfig}

/-- The credential plugin of a user in the list has null for one of its lists. -/
def HasNullList (t : Tree) : Prop :=
  ∃ users items entry body, t.key? "users" = some users ∧ users.items? = some items ∧
    entry ∈ items ∧ entry.key? "user" = some body ∧ User.HasNullList body

/-- An entry of the users differs from another one by null for empty lists of its credential
plugin. -/
def EntryNulls (t t' : Tree) : Prop :=
  Tree.Alters ["user"] (fun _ o u ↦ ∃ body, o = some body ∧ User.Nulls body u) t t'

/-- Some entries of a list differ in this way. -/
def UsersNull (t t' : Tree) : Prop :=
  ∃ tag items items', t = .list tag items ∧ t' = .list tag items' ∧
    List.Forall₂ (fun entry entry' ↦ entry' = entry ∨ EntryNulls entry entry') items items'

/-- Null stands for an empty list, or in the entries of the users. -/
def ListNulls (name : String) (o : Option Tree) (u : Tree) : Prop :=
  NoItems o ∧ u.IsNull ∨ name = "users" ∧ ∃ users, o = some users ∧ UsersNull users u

/-- A tree differs from another one by null for empty lists, in any of the places where a list has
a meaning. -/
def Nulls : Tree → Tree → Prop := Tree.Alters ["clusters", "users", "contexts"] ListNulls

/-! ### Lists of entries -/

section Lists

variable {list body : String} {absent : α} {read : Tree → Option α} {map : NameMap α}

/-- A list that is null is as good as one without items. -/
theorem entriesOf?_of_isNull {o : Option Tree} (h : entriesOf? m list body absent read = some map)
    (hold : Members.under m list = o.toList) (hnone : NoItems o)
    (hunder : Members.under m' list = [u]) (hnull : u.IsNull) :
    entriesOf? m' list body absent read = some map := by
  obtain ⟨entries, hentries, hmap⟩ := entriesOf?_eq_some_iff.1 h
  rw [Members.optional?, Members.read?_of_under hold] at hentries
  have hempty : entries.getD [] = [] := by
    cases o with
    | none =>
      cases hentries
      rfl
    | some v =>
      have hlist : Tree.list? (entryOfTree? body absent read) v = some [] := by
        rw [Tree.list?, hnone v rfl]
        rfl
      -- A list without items may itself be as good as absent.
      rw [Option.elim_some, Tree.optional, hlist] at hentries
      split at hentries
      · cases hentries
      · cases hentries
        rfl
      · cases hentries
        rfl
  refine entriesOf?_eq_some_iff.2 ⟨none, ?_, ?_⟩
  · rw [Members.optional?, Members.read?_of_under (o := some u) hunder, Option.elim_some,
      Tree.optional_of_isNull hnull]
  · rw [← hmap, hempty]
    rfl

/-- Null makes no difference for lists whose entries stay as they are. -/
theorem entriesOf?_of_ne (halters : Members.Alters names ListNulls m m')
    (h : entriesOf? m list body absent read = some map) (hlist : list ≠ "users") :
    entriesOf? m' list body absent read = some map := by
  rcases halters.under_cases list with hunder | ⟨-, o, u, hold, hunder, hnulls⟩
  · rwa [entriesOf?, Members.optional?, Members.read?_congr hunder]
  · obtain ⟨hnone, hnull⟩ := hnulls.resolve_right fun husers ↦ hlist husers.1
    exact entriesOf?_of_isNull h hold hnone hunder hnull

end Lists

/-! ### Users with their plugins -/

theorem entryOfTree?_of_nulls {e : String × User}
    (h : entryOfTree? "user" {} User.ofTree? t = some e) (hnulls : EntryNulls t t')
    (hclear : ∀ body, t'.key? "user" = some body → ¬ User.HasNullList body) :
    entryOfTree? "user" {} User.ofTree? t' = some e := by
  obtain ⟨m, hmembers, hname, hbody⟩ := entryOfTree?_eq_some_iff.1 h
  obtain ⟨m', hmembers', halters⟩ := hnulls.members hmembers
  refine entryOfTree?_eq_some_iff.2 ⟨m', hmembers',
    (halters.read?_eq (by decide) _ _).trans hname, halters.read? hbody ?_⟩
  rintro _ u - hunder ⟨body, rfl, hnulls⟩ hold
  exact User.ofTree?_of_nulls hold hnulls (hclear u (Tree.key?_of_under hmembers' hunder))

/-- Trees that are read one by one are read as before, if each of them is. -/
theorem mapM_of_forall₂ {S : Tree → Tree → Prop} {read : Tree → Option α} {items items' : List Tree}
    {r : List α} (h : List.Forall₂ S items items') (hread : items.mapM read = some r)
    (hsame : ∀ item item' a, item' ∈ items' → S item item' → read item = some a →
      read item' = some a) : items'.mapM read = some r := by
  induction h generalizing r with
  | nil => exact hread
  | cons hfirst hrest ih =>
    rw [List.mapM_cons] at hread ⊢
    obtain ⟨a, ha, hread⟩ := Option.bind_eq_some_iff.1 hread
    obtain ⟨more, hmore, hr⟩ := Option.bind_eq_some_iff.1 hread
    refine Option.bind_eq_some_iff.2 ⟨a, hsame _ _ a List.mem_cons_self hfirst ha, ?_⟩
    refine Option.bind_eq_some_iff.2 ⟨more, ih hmore fun item item' a hitem ↦ ?_, hr⟩
    exact hsame item item' a (List.mem_cons_of_mem _ hitem)

/-- The users are read as before, unless one of them has null for a list of its plugin. -/
theorem entriesOf?_users {users : NameMap User} (hmembers' : t'.members? = some m')
    (halters : Members.Alters names ListNulls m m')
    (h : entriesOf? m "users" "user" {} User.ofTree? = some users) (hclear : ¬ HasNullList t') :
    entriesOf? m' "users" "user" {} User.ofTree? = some users := by
  rcases halters.under_cases "users" with hunder | ⟨-, o, u, hold, hunder, hrelated⟩
  · rwa [entriesOf?, Members.optional?, Members.read?_congr hunder]
  · rcases hrelated with ⟨hnone, hnull⟩ | ⟨-, list, rfl, tag, items, items', rfl, rfl, hitems⟩
    · exact entriesOf?_of_isNull h hold hnone hunder hnull
    · obtain ⟨entries, hentries, hmap⟩ := entriesOf?_eq_some_iff.1 h
      rw [Members.optional?, Members.read?_of_under hold, Option.elim_some,
        Tree.optional_of_present rfl] at hentries
      obtain ⟨r, hr, rfl⟩ := Option.map_eq_some_iff.1 hentries
      have hsame := mapM_of_forall₂ hitems hr fun item item' a hitem hrelated hread ↦ by
        rcases hrelated with rfl | hnulls
        · exact hread
        · refine entryOfTree?_of_nulls hread hnulls fun body hbody hnull ↦ hclear ?_
          exact ⟨_, items', item', body, Tree.key?_of_under hmembers' hunder, rfl, hitem, hbody,
            hnull⟩
      refine entriesOf?_eq_some_iff.2 ⟨some r, ?_, hmap⟩
      rw [Members.optional?, Members.read?_of_under (o := some (.list tag items')) hunder,
        Option.elim_some, Tree.optional_of_present rfl, Tree.list?, Tree.items?, Option.bind_some,
        hsame, Option.map_some]

/-! ### Kubeconfigs -/

theorem ofTree?_eq_none (h : HasNullList t) : ofTree? t = none := by
  obtain ⟨users, items, entry, body, hkey, hitems, hentry, hbody, hnull⟩ := h
  refine Option.eq_none_iff_forall_ne_some.2 fun config hconfig ↦ ?_
  obtain ⟨m, hmembers, -, -, -, -, husers, -⟩ := ofTree?_eq_some_iff.1 hconfig
  obtain ⟨entries, hentries, -⟩ := entriesOf?_eq_some_iff.1 husers
  obtain ⟨r, -, hlist⟩ := Members.exists_of_optional_key hmembers hentries hkey
    (present?_of_mem_items hitems hentry)
  rw [Tree.list?, hitems, Option.bind_some] at hlist
  obtain ⟨e, -, he⟩ := exists_mem_of_forall₂ (forall₂_of_mapM hlist).flip hentry
  obtain ⟨members, hmembers', -, hread⟩ := entryOfTree?_eq_some_iff.1 he
  simpa [User.ofTree?_eq_none hnull] using Members.read_of_key hmembers' hread hbody

theorem ofTree?_of_nulls (h : ofTree? t = some config) (hnulls : Nulls t t')
    (hclear : ¬ HasNullList t') : ofTree? t' = some config := by
  obtain ⟨m, hmembers, hversion, hkind, hpreferences, hclusters, husers, hcontexts, hcurrent,
    hextensions, hextra⟩ := ofTree?_eq_some_iff.1 h
  obtain ⟨m', hmembers', halters⟩ := hnulls.members hmembers
  exact ofTree?_eq_some_iff.2 ⟨m', hmembers',
    (halters.read?_eq (by decide) _ _).trans hversion,
    (halters.read?_eq (by decide) _ _).trans hkind,
    (halters.read?_eq (by decide) _ _).trans hpreferences,
    entriesOf?_of_ne halters hclusters (by decide),
    entriesOf?_users hmembers' halters husers hclear,
    entriesOf?_of_ne halters hcontexts (by decide),
    (halters.read?_eq (by decide) _ _).trans hcurrent,
    (halters.read?_eq (by decide) _ _).trans hextensions,
    (halters.others?_eq (by decide)).trans hextra⟩

/-- Where null is put for empty lists, the tree is read as before if no credential plugin has null
for one of its lists, and else it is not read at all. -/
theorem ofTree?_nulled_iff (h : ofTree? t = some config) (hnulls : Nulls t t') :
    (ofTree? t' = some config ↔ ¬ HasNullList t') ∧ (HasNullList t' → ofTree? t' = none) := by
  refine ⟨⟨fun hread hnull ↦ ?_, ofTree?_of_nulls h hnulls⟩, ofTree?_eq_none⟩
  rw [ofTree?_eq_none hnull] at hread
  cases hread

/-- A credential plugin with these members beside its command. -/
def pluginTree (more : Members) : Tree :=
  .table none ((("command", .leaf none (.quoted "login")) :: more).map fun e ↦
    (.leaf none (.plain e.1), e.2))

/-- A user with that plugin. -/
def userTree (more : Members) : Tree :=
  .table none [(.leaf none (.plain "exec"), pluginTree more)]

/-- An entry with that user. -/
def entryTree (more : Members) : Tree :=
  .table none [(.leaf none (.plain "name"), .leaf none (.plain "admin")),
    (.leaf none (.plain "user"), userTree more)]

/-- A kubeconfig with that entry and these members beside its users. -/
def wholeTree (lists more : Members) : Tree :=
  .table none ((("users", .list none [entryTree more]) :: lists).map fun e ↦
    (.leaf none (.plain e.1), e.2))

/-- Null under a key. -/
def nullAt (name : String) : Members := [(name, .leaf none (.plain "null"))]

theorem exists_ofTree?_wholeTree : ∃ config, ofTree? (wholeTree [] []) = some config :=
  Option.isSome_iff_exists.1 (by rfl)

/-- With null for the clusters the tree is read as the same kubeconfig. -/
theorem ofTree?_nullClusters : ∃ config, ofTree? (wholeTree [] []) = some config ∧
    Nulls (wholeTree [] []) (wholeTree (nullAt "clusters") []) ∧
    ofTree? (wholeTree (nullAt "clusters") []) = some config := by
  obtain ⟨config, hconfig⟩ := exists_ofTree?_wholeTree
  have hnulls : Nulls (wholeTree [] []) (wholeTree (nullAt "clusters") []) := by
    refine ⟨_, _, none, _, rfl, rfl, rfl, rfl, ?_⟩
    rw [List.forall_mem_cons, List.forall_mem_cons, List.forall_mem_singleton]
    exact ⟨Or.inr ⟨none, _, rfl, rfl, Or.inl ⟨nofun, rfl, rfl⟩⟩, Or.inl rfl, Or.inl rfl⟩
  have hread : (ofTree? (wholeTree (nullAt "clusters") [])).isSome = true := rfl
  have hclear : ¬ HasNullList (wholeTree (nullAt "clusters") []) := fun hnull ↦ by
    simp [ofTree?_eq_none hnull] at hread
  exact ⟨config, hconfig, hnulls, (ofTree?_nulled_iff hconfig hnulls).1.2 hclear⟩

theorem nulls_nullArgs : Nulls (wholeTree [] []) (wholeTree [] (nullAt "args")) := by
  have hplugin : Plugin.Nulls (pluginTree []) (pluginTree (nullAt "args")) := by
    refine ⟨_, _, none, _, rfl, rfl, rfl, rfl, ?_⟩
    rw [List.forall_mem_cons, List.forall_mem_singleton]
    exact ⟨Or.inr ⟨none, _, rfl, rfl, nofun, rfl, rfl⟩, Or.inl rfl⟩
  have huser : User.Nulls (userTree []) (userTree (nullAt "args")) := by
    refine ⟨_, _, none, _, rfl, rfl, rfl, rfl, ?_⟩
    rw [List.forall_mem_singleton]
    exact Or.inr ⟨some _, _, rfl, rfl, _, rfl, rfl, hplugin⟩
  have hentry : EntryNulls (entryTree []) (entryTree (nullAt "args")) := by
    refine ⟨_, _, none, _, rfl, rfl, rfl, rfl, ?_⟩
    rw [List.forall_mem_singleton]
    exact Or.inr ⟨some _, _, rfl, rfl, _, rfl, huser⟩
  have husers : UsersNull (.list none [entryTree []]) (.list none [entryTree (nullAt "args")]) :=
    ⟨none, _, _, rfl, rfl, .cons (Or.inr hentry) .nil⟩
  refine ⟨_, _, none, _, rfl, rfl, rfl, rfl, ?_⟩
  rw [List.forall_mem_cons, List.forall_mem_cons, List.forall_mem_singleton]
  exact ⟨Or.inl rfl, Or.inr ⟨some _, _, rfl, rfl, Or.inr ⟨rfl, _, rfl, husers⟩⟩, Or.inl rfl⟩

/-- With null for the arguments of the plugin it is not read. -/
theorem nullArgs_unreadable : ∃ config, ofTree? (wholeTree [] []) = some config ∧
    Nulls (wholeTree [] []) (wholeTree [] (nullAt "args")) ∧
    ofTree? (wholeTree [] (nullAt "args")) ≠ some config := by
  obtain ⟨config, hconfig⟩ := exists_ofTree?_wholeTree
  have hnull : HasNullList (wholeTree [] (nullAt "args")) :=
    ⟨_, _, _, _, rfl, rfl, List.mem_singleton_self _, rfl, _, rfl, "args", by decide, _, rfl, rfl,
      rfl⟩
  refine ⟨config, hconfig, nulls_nullArgs, ?_⟩
  rw [ofTree?_eq_none hnull]
  exact nofun

end Kubeconfig

end Wayfinder
