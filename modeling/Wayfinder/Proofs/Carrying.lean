import Mathlib.Data.List.Forall2
import Wayfinder.Proofs.Rereading

/-!
Which keys of a tree are still there when it was read and is written again. Main statement: in every
record of the kubeconfig a known key stays if it carries something, and a key without a meaning
stays with its value in the records that take such keys along, and in no other (`carried`). A record
is found by where it stands, entries by their names; that it was read, and is found again in what is
written, is `Kubeconfig.record_written`, and what it then holds of its tree is one condition
(`Holds`) that each kind of record fulfils.
-/

set_option autoImplicit false
set_option relaxedAutoImplicit false

namespace Wayfinder

/-! ### Records of a tree -/

namespace Tree

/-- The tree under a key of a table. The last one of its name counts. -/
def key? (t : Tree) (name : String) : Option Tree :=
  t.members?.bind fun members ↦ (members.reverse.find? fun m ↦ m.1 == name).map (·.2)

/-- The name of an entry. -/
def name? (t : Tree) : Option String := (t.key? "name").bind text?

/-- The entry of a name in a list. The last one of its name counts. -/
def named? (t : Tree) (name : String) : Option Tree :=
  t.items?.bind fun items ↦ items.reverse.find? fun item ↦ item.name? == some name

end Tree

namespace EntryKind

/-- The key of the list of the entries of a kind. -/
def listKey : EntryKind → String
  | .context => "contexts"
  | .cluster => "clusters"
  | .user => "users"

/-- The key of what an entry of a kind is. -/
def bodyKey : EntryKind → String
  | .context => "context"
  | .cluster => "cluster"
  | .user => "user"

/-- What an entry of a kind is. -/
def Body : EntryKind → Type
  | .context => Context
  | .cluster => Cluster
  | .user => User

/-- What an entry is that has no body. -/
def absent : (kind : EntryKind) → kind.Body
  | .context => ({} : Context)
  | .cluster => ({} : Cluster)
  | .user => ({} : User)

/-- Reads the body of an entry. -/
def read : (kind : EntryKind) → Tree → Option kind.Body
  | .context => Context.ofTree?
  | .cluster => Cluster.ofTree?
  | .user => User.ofTree?

/-- Lays out the body of an entry. -/
def write : (kind : EntryKind) → kind.Body → Value
  | .context => Context.toValue
  | .cluster => Cluster.toValue
  | .user => User.toValue

/-- The keys of a body that have a meaning. -/
def bodyKeys : EntryKind → List String
  | .context => Context.keys
  | .cluster => Cluster.keys
  | .user => User.keys

/-- The bodies of a kind in a kubeconfig, under their names. -/
def bodies : (kind : EntryKind) → Kubeconfig → NameMap kind.Body
  | .context => Kubeconfig.contexts
  | .cluster => Kubeconfig.clusters
  | .user => Kubeconfig.users

end EntryKind

/-- The records that a kubeconfig is made of. -/
inductive Record
  | whole
  | entry (kind : EntryKind) (name : String)
  | body (kind : EntryKind) (name : String)
  /-- The credential plugin of a user. -/
  | plugin (user : String)
  /-- A variable of the credential plugin of a user. -/
  | pluginVariable (user : String) (number : Nat)

namespace Tree

/-- An entry of a kubeconfig. -/
def listed? (t : Tree) (kind : EntryKind) (name : String) : Option Tree :=
  (t.key? kind.listKey).bind (·.named? name)

/-- The body of an entry of a kubeconfig. -/
def body? (t : Tree) (kind : EntryKind) (name : String) : Option Tree :=
  (t.listed? kind name).bind (·.key? kind.bodyKey)

/-- The credential plugin of a user of a kubeconfig. -/
def plugin? (t : Tree) (user : String) : Option Tree := (t.body? .user user).bind (·.key? "exec")

/-- A record of a kubeconfig. -/
def record? (t : Tree) : Record → Option Tree
  | .whole => some t
  | .entry kind name => t.listed? kind name
  | .body kind name => t.body? kind name
  | .plugin user => t.plugin? user
  | .pluginVariable user number =>
    ((t.plugin? user).bind (·.key? "env")).bind fun env ↦ env.items?.bind (·[number]?)

end Tree

namespace Record

/-- The keys of a record that have a meaning. -/
def keys : Record → List String
  | .whole => Kubeconfig.keys
  | .entry kind _ => ["name", kind.bodyKey]
  | .body kind _ => kind.bodyKeys
  | .plugin _ => Plugin.keys
  | .pluginVariable _ _ => ["name", "value"]

/-- Whether a record takes keys that have no meaning along. -/
def isOpen : Record → Bool
  | .whole => true
  | .entry _ _ => false
  | .body _ _ => true
  | .plugin _ => true
  | .pluginVariable _ _ => false

end Record

/-- Keys whose value may have any shape, although they have a meaning. -/
def shapelessKeys : List String := ["preferences", "extensions"]

/-- What a known key may carry that is as good as nothing: an absent value, or an empty list under
one of the keys for which such a list is left out. -/
def Tree.IsIdle (name : String) (u : Tree) : Prop :=
  u.present? = some false ∨ name ∈ ["args", "env"] ∧ u.items? = some []

/-! ### Keys that are read -/

section Reading

variable {α : Type} {t u : Tree} {members : Members} {name : String}

theorem Tree.key?_eq (h : t.members? = some members) (name : String) :
    t.key? name = ((members.filter fun m ↦ m.1 == name).getLast?).map (·.2) := by
  rw [key?, h, Option.bind_some, List.getLast?_filter]

namespace Members

theorem read_of_key {absent : Option α} {read : Tree → Option α} {a : α}
    (hmembers : t.members? = some members) (hread : members.read? name absent read = some a)
    (hkey : t.key? name = some u) : read u = some a := by
  rw [Tree.key?_eq hmembers] at hkey
  unfold read? at hread
  split at hread
  · next hfilter => simp [hfilter] at hkey
  · next m hfilter =>
    obtain rfl : m.2 = u := by simpa [hfilter] using hkey
    exact hread
  · cases hread

theorem exists_of_optional_key {read : Tree → Option α} {o : Option α}
    (hmembers : t.members? = some members) (hread : members.optional? name read = some o)
    (hkey : t.key? name = some u) (hu : u.present? ≠ some false) :
    ∃ a, o = some a ∧ read u = some a := by
  have hoptional := read_of_key hmembers hread hkey
  unfold Tree.optional at hoptional
  split at hoptional
  · cases hoptional
  · next hfalse => exact absurd hfalse hu
  · obtain ⟨a, ha, rfl⟩ := Option.map_eq_some_iff.1 hoptional
    exact ⟨a, rfl, ha⟩

theorem exists_key_of_read {read : Tree → Option α} {a : α}
    (hmembers : t.members? = some members) (hread : members.read? name none read = some a) :
    ∃ u, t.key? name = some u ∧ read u = some a := by
  rw [Tree.key?_eq hmembers]
  unfold read? at hread
  split at hread
  · cases hread
  · next m hfilter => exact ⟨m.2, by simp [hfilter], hread⟩
  · cases hread

end Members

end Reading

/-- A tree with a key in it is there. -/
theorem Tree.present?_of_key? {t u : Tree} {name : String} (h : t.key? name = some u) :
    t.present? ≠ some false := by
  obtain ⟨members, hmembers, hfind⟩ := Option.bind_eq_some_iff.1 h
  obtain ⟨entries, hentries, hread⟩ := Option.bind_eq_some_iff.1 hmembers
  unfold entries? at hentries
  split at hentries
  · simp [present?]
  · split at hentries
    · cases hentries
      cases hread
      cases hfind
    · cases hentries
  · cases hentries

/-! ### Lists that correspond item by item -/

section Lists

variable {α β : Type} {R : α → String × β → Prop} {l : List α} {r : List (String × β)}
  {p : α → Bool} {name : String}

theorem exists_lookup_of_find? {a : α} (h : List.Forall₂ R l r)
    (hp : ∀ a e, R a e → (p a = true ↔ e.1 = name)) (hfind : l.find? p = some a) :
    ∃ b, NameMap.lookup name r = some b ∧ R a (name, b) := by
  induction h with
  | nil => cases hfind
  | @cons first e l r hfirst hrest ih =>
    obtain ⟨key, b⟩ := e
    rw [List.find?_cons] at hfind
    rw [NameMap.lookup]
    split at hfind
    · next hpa =>
      obtain rfl := Option.some.inj hfind
      obtain rfl : key = name := (hp _ _ hfirst).1 hpa
      exact ⟨b, if_pos rfl, hfirst⟩
    · next hpa =>
      have hne : key ≠ name := fun hkey ↦ by simp [(hp _ _ hfirst).2 hkey] at hpa
      rw [if_neg hne]
      exact ih hfind

theorem exists_find?_of_lookup {b : β} (h : List.Forall₂ R l r)
    (hp : ∀ a e, R a e → (p a = true ↔ e.1 = name)) (hlookup : NameMap.lookup name r = some b) :
    ∃ a, l.find? p = some a ∧ R a (name, b) := by
  induction h with
  | nil => cases hlookup
  | @cons first e l r hfirst hrest ih =>
    obtain ⟨key, found⟩ := e
    rw [NameMap.lookup] at hlookup
    rw [List.find?_cons]
    split at hlookup
    · next hkey =>
      obtain rfl := Option.some.inj hlookup
      subst hkey
      rw [(hp _ _ hfirst).2 rfl]
      exact ⟨first, rfl, hfirst⟩
    · next hkey =>
      have hpa : p first = false := Bool.eq_false_iff.2 fun hpa ↦ hkey ((hp _ _ hfirst).1 hpa)
      rw [hpa]
      exact ih hlookup

end Lists

/-- The entry of a name in a map is found from the back as well. -/
theorem NameMap.find?_reverse_entries {α : Type} (m : NameMap α) (name : String) :
    (m.entries.reverse.find? fun e ↦ e.1 == name).map (·.2) = m.get? name := by
  have hsame : List.Forall₂ Eq m.entries.reverse m.entries.reverse := List.forall₂_refl _
  have hname : ∀ a e : String × α, a = e → ((a.1 == name) = true ↔ e.1 = name) := by
    rintro a _ rfl
    exact beq_iff_eq
  rw [← ofList_entries m, get?_ofList, ofList_entries]
  cases hfind : m.entries.reverse.find? fun e ↦ e.1 == name with
  | some e =>
    obtain ⟨a, ha, rfl⟩ := exists_lookup_of_find? hsame hname hfind
    exact ha.symm
  | none =>
    cases hlookup : lookup name m.entries.reverse with
    | none => rfl
    | some a =>
      obtain ⟨e, he, -⟩ := exists_find?_of_lookup hsame hname hlookup
      rw [hfind] at he
      cases he

/-! ### Keys that are written -/

section Writing

variable {known : List (String × Option Value)} {extra : Extra} {name : String}
  {value : Option Value}

theorem Tree.key?_record (known : List (String × Option Value)) (extra : Extra) (name : String) :
    (ofValue (.record known extra)).key? name =
      (((laid known extra).filter fun e ↦ e.1 == name).getLast?).map (ofValue ·.2) := by
  rw [key?_eq (members?_ofValue_record known extra), Members.written, List.filter_map,
    List.getLast?_map, Option.map_map]
  rfl

theorem Tree.key?_record_known (h : Unambiguous known extra) (hmem : (name, value) ∈ known) :
    (ofValue (.record known extra)).key? name = value.map ofValue := by
  rw [key?_record, filter_laid h hmem]
  cases value <;> rfl

/-- A key without a meaning stands where it is carried along. -/
theorem Tree.key?_record_other (hname : name ∉ known.map (·.1)) :
    (ofValue (.record known extra)).key? name = (extra.get? name).map ofValue := by
  have hknown : (filled known).filter (fun e ↦ e.1 == name) = [] := by
    refine List.filter_eq_nil_iff.2 fun e he heq ↦ hname ?_
    exact List.mem_map.2 ⟨_, mem_filled.1 he, beq_iff_eq.1 heq⟩
  rw [key?_record, laid, List.filter_append, hknown, List.nil_append, List.getLast?_filter,
    ← extra.find?_reverse_entries, Option.map_map]
  rfl

end Writing

/-! ### What a record holds of its tree -/

/-- A known field has a value where the tree carries something under its key. -/
def Filled (t : Tree) (field : String × Option Value) : Prop :=
  ∀ u, t.key? field.1 = some u → ¬ u.IsIdle field.1 →
    ∃ v, field.2 = some v ∧ (field.1 ∈ shapelessKeys → Tree.value? true u = some v)

/-- What a record that was read holds of the tree it was read of: its known fields are filled, and
every other key has its value, if the record takes such keys along. -/
structure Holds (t : Tree) (keys : List String) (isOpen : Bool)
    (known : List (String × Option Value)) (extra : Extra) : Prop where
  plain : Unambiguous known extra
  keys_eq : known.map (·.1) = keys
  filled : ∀ field ∈ known, Filled t field
  others : isOpen = true → ∀ name u, name ∉ keys → t.key? name = some u →
    ∃ v, Tree.value? false u = some v ∧ extra.get? name = some v
  closed : isOpen = false → extra = ∅

section Filling

variable {α : Type} {t u : Tree} {members : Members} {keys : List String} {extra : Extra}
  {name : String}

theorem filled_some (v : Value) (hshape : name ∉ shapelessKeys) : Filled t (name, some v) :=
  fun _ _ _ ↦ ⟨v, rfl, fun hshapeless ↦ absurd hshapeless hshape⟩

theorem filled_optional {o : Option α} {read : Tree → Option α} (write : α → Value)
    (hmembers : t.members? = some members) (hread : members.optional? name read = some o)
    (hshape : name ∉ shapelessKeys) : Filled t (name, o.map write) := by
  intro u hkey hidle
  obtain ⟨a, rfl, -⟩ :=
    Members.exists_of_optional_key hmembers hread hkey fun hu ↦ hidle (Or.inl hu)
  exact ⟨write a, rfl, fun hshapeless ↦ absurd hshapeless hshape⟩

theorem filled_value {o : Option Value} (hmembers : t.members? = some members)
    (hread : members.optional? name (Tree.value? true) = some o) : Filled t (name, o) := by
  intro u hkey hidle
  obtain ⟨v, rfl, hv⟩ :=
    Members.exists_of_optional_key hmembers hread hkey fun hu ↦ hidle (Or.inl hu)
  exact ⟨v, rfl, fun _ ↦ hv⟩

theorem filled_list {l : List α} {read : Tree → Option α} (write : α → Value)
    (hmembers : t.members? = some members)
    (hread : members.read? name (some []) (Tree.list? read) = some l)
    (hname : name ∈ ["args", "env"]) (hshape : name ∉ shapelessKeys) :
    Filled t (name, Plugin.listIf (l.map write)) := by
  intro u hkey hidle
  have hlist := Members.read_of_key hmembers hread hkey
  obtain ⟨items, hitems, hl⟩ := Option.bind_eq_some_iff.1 hlist
  cases l with
  | cons a rest => exact ⟨_, rfl, fun hshapeless ↦ absurd hshapeless hshape⟩
  | nil =>
    cases forall₂_of_mapM hl
    exact absurd (Or.inr ⟨hname, hitems⟩) hidle

theorem Members.exists_other_of_key (hmembers : t.members? = some members)
    (hextra : members.others? keys = some extra) (hname : name ∉ keys)
    (hkey : t.key? name = some u) :
    ∃ v, Tree.value? false u = some v ∧ extra.get? name = some v := by
  rw [Tree.key?, hmembers, Option.bind_some] at hkey
  obtain ⟨m, hfind, rfl⟩ := Option.map_eq_some_iff.1 hkey
  obtain ⟨read, hread, rfl⟩ := Option.map_eq_some_iff.1 hextra
  -- No key of this name is left out as a known one.
  have hfilter : (fun m : String × Tree ↦
      decide ((!keys.contains m.1) = true ∧ (m.1 == name) = true)) = fun m ↦ m.1 == name := by
    funext m
    by_cases hm : m.1 = name <;> simp [hm, hname]
  have hsame : ∀ (m : String × Tree) (e : String × Value),
      ((Tree.value? false m.2).map fun value ↦ (m.1, value)) = some e →
        ((m.1 == name) = true ↔ e.1 = name) := by
    intro m e he
    obtain ⟨v, -, rfl⟩ := Option.map_eq_some_iff.1 he
    exact beq_iff_eq
  rw [← hfilter, ← List.find?_filter, List.filter_reverse] at hfind
  obtain ⟨v, hlookup, hv⟩ := exists_lookup_of_find?
    (List.forall₂_reverse_iff.2 (forall₂_of_mapM hread)) hsame hfind
  obtain ⟨w, hw, hvalue⟩ := Option.map_eq_some_iff.1 hv
  exact ⟨v, (Prod.mk.inj hvalue).2 ▸ hw, (NameMap.get?_ofList read name).trans hlookup⟩

theorem holds_of_others {known : List (String × Option Value)}
    (hmembers : t.members? = some members) (hextra : members.others? keys = some extra)
    (hkeys : known.map (·.1) = keys) (hnodup : keys.Nodup)
    (hfilled : ∀ field ∈ known, Filled t field) : Holds t keys true known extra := by
  subst hkeys
  exact ⟨⟨hnodup, (Members.clean_of_others? hextra).apart⟩, rfl, hfilled,
    fun _ _ _ hother hkey ↦ Members.exists_other_of_key hmembers hextra hother hkey, nofun⟩

theorem holds_of_closed {known : List (String × Option Value)} (hplain : Unambiguous known ∅)
    (hkeys : known.map (·.1) = keys) (hfilled : ∀ field ∈ known, Filled t field) :
    Holds t keys false known ∅ :=
  ⟨hplain, hkeys, hfilled, fun hopen ↦ absurd hopen Bool.false_ne_true, fun _ ↦ rfl⟩

end Filling

theorem Cluster.holds {t : Tree} {c : Cluster} (h : ofTree? t = some c) :
    Holds t keys true c.known c.extra := by
  obtain ⟨members, hmembers, -, hdata, hfile, hskip, hname, hextra⟩ := ofTree?_eq_some_iff.1 h
  refine holds_of_others hmembers hextra rfl (by decide) ?_
  simp only [known, List.forall_mem_cons]
  exact ⟨filled_some _ (by decide), filled_optional _ hmembers hdata (by decide),
    filled_optional _ hmembers hfile (by decide), filled_optional _ hmembers hskip (by decide),
    filled_optional _ hmembers hname (by decide), List.forall_mem_nil _⟩

theorem Variable.holds (t : Tree) (v : Variable) :
    Holds t ["name", "value"] false v.known ∅ := by
  have hnodup : ["name", "value"].Nodup := by decide
  refine holds_of_closed ⟨hnodup, Extra.apart_empty _⟩ rfl ?_
  simp only [known, List.forall_mem_cons]
  exact ⟨filled_some _ (by decide), filled_some _ (by decide), List.forall_mem_nil _⟩

theorem Plugin.holds {t : Tree} {p : Plugin} (h : ofTree? t = some p) :
    Holds t keys true p.known p.extra := by
  obtain ⟨members, hmembers, -, -, hargs, henv, hextra⟩ := ofTree?_eq_some_iff.1 h
  refine holds_of_others hmembers hextra rfl (by decide) ?_
  simp only [known, List.forall_mem_cons]
  exact ⟨filled_some _ (by decide), filled_some _ (by decide),
    filled_list _ hmembers hargs (by decide) (by decide),
    filled_list _ hmembers henv (by decide) (by decide), List.forall_mem_nil _⟩

theorem User.holds {t : Tree} {u : User} (h : ofTree? t = some u) :
    Holds t keys true u.known u.extra := by
  obtain ⟨members, hmembers, htoken, hplugin, hcertificate, hkey, hextra⟩ :=
    ofTree?_eq_some_iff.1 h
  refine holds_of_others hmembers hextra rfl (by decide) ?_
  simp only [known, List.forall_mem_cons]
  exact ⟨filled_optional _ hmembers htoken (by decide),
    filled_optional _ hmembers hplugin (by decide),
    filled_optional _ hmembers hcertificate (by decide),
    filled_optional _ hmembers hkey (by decide), List.forall_mem_nil _⟩

theorem Context.holds {t : Tree} {c : Context} (h : ofTree? t = some c) :
    Holds t keys true c.known c.extra := by
  obtain ⟨members, hmembers, -, -, hname, hextensions, hextra⟩ := ofTree?_eq_some_iff.1 h
  refine holds_of_others hmembers hextra rfl (by decide) ?_
  simp only [known, List.forall_mem_cons]
  exact ⟨filled_some _ (by decide), filled_some _ (by decide),
    filled_optional _ hmembers hname (by decide), filled_value hmembers hextensions,
    List.forall_mem_nil _⟩

theorem Kubeconfig.holds {t : Tree} {c : Kubeconfig} (h : ofTree? t = some c) :
    Holds t keys true c.known c.extra := by
  obtain ⟨members, hmembers, hversion, hkind, hpreferences, -, -, -, -, hextensions, hextra⟩ :=
    ofTree?_eq_some_iff.1 h
  refine holds_of_others hmembers hextra rfl (by decide) ?_
  simp only [known, List.forall_mem_cons]
  exact ⟨filled_optional _ hmembers hversion (by decide),
    filled_optional _ hmembers hkind (by decide), filled_value hmembers hpreferences,
    filled_some _ (by decide), filled_some _ (by decide), filled_some _ (by decide),
    filled_some _ (by decide), filled_value hmembers hextensions, List.forall_mem_nil _⟩

/-! ### Records that are written -/

theorem EntryKind.bodyKey_ne_name (kind : EntryKind) : kind.bodyKey ≠ "name" := by
  cases kind <;> decide

theorem EntryKind.holds {kind : EntryKind} {t : Tree} {b : kind.Body} (h : kind.read t = some b) :
    ∃ known extra, kind.write b = .record known extra ∧ Holds t kind.bodyKeys true known extra := by
  cases kind with
  | context => exact ⟨_, _, Context.toValue_eq b, Context.holds h⟩
  | cluster => exact ⟨_, _, Cluster.toValue_eq b, Cluster.holds h⟩
  | user => exact ⟨_, _, User.toValue_eq b, User.holds h⟩

namespace Kubeconfig

variable {t : Tree} {config : Kubeconfig} {kind : EntryKind} {name : String}

theorem entriesOf?_bodies (kind : EntryKind) (h : ofTree? t = some config) :
    ∃ members : Members, t.members? = some members ∧
      entriesOf? members kind.listKey kind.bodyKey kind.absent kind.read =
        some (kind.bodies config) := by
  obtain ⟨members, hmembers, -, -, -, hclusters, husers, hcontexts, -⟩ := ofTree?_eq_some_iff.1 h
  refine ⟨members, hmembers, ?_⟩
  cases kind with
  | context => exact hcontexts
  | cluster => exact hclusters
  | user => exact husers

theorem mem_known_bodies (kind : EntryKind) (config : Kubeconfig) :
    (kind.listKey, some (entriesValue kind.bodyKey kind.write (kind.bodies config))) ∈
      config.known := by
  cases kind <;> simp [known, EntryKind.listKey, EntryKind.bodyKey, EntryKind.write,
    EntryKind.bodies] <;> rfl

theorem name?_of_entryOfTree? {α : Type} {body : String} {absent : α} {read : Tree → Option α}
    {e : String × α} (h : entryOfTree? body absent read t = some e) : t.name? = some e.1 := by
  obtain ⟨members, hmembers, hname, -⟩ := entryOfTree?_eq_some_iff.1 h
  obtain ⟨u, hu, htext⟩ := Members.exists_key_of_read hmembers hname
  rw [Tree.name?, hu, Option.bind_some, htext]

theorem named?_eq_some_iff_of_entryOfTree? {α : Type} {body : String} {absent : α}
    {read : Tree → Option α} (item : Tree) (e : String × α)
    (h : entryOfTree? body absent read item = some e) :
    (item.name? == some name) = true ↔ e.1 = name := by
  rw [name?_of_entryOfTree? h, beq_iff_eq, Option.some.injEq]

/-- The entry of a name is found in a list that was written. -/
theorem named?_entriesValue {α : Type} {body : String} {toValue : α → Value} {m : NameMap α} {a : α}
    (hbody : body ≠ "name") (hget : m.get? name = some a) :
    (Tree.ofValue (entriesValue body toValue m)).named? name =
      some (Tree.ofValue (.record (entryKnown body toValue (name, a)) ∅)) := by
  have hitems : List.Forall₂
      (fun item e ↦ item = Tree.ofValue (.record (entryKnown body toValue e) ∅))
      ((m.entries.map fun e ↦ Tree.ofValue (.record (entryKnown body toValue e) ∅)).reverse)
      m.entries.reverse :=
    List.forall₂_reverse_iff.2 (List.forall₂_map_left_iff.2 (List.forall₂_same.2 fun _ _ ↦ rfl))
  have hname : ∀ item e, item = Tree.ofValue (.record (entryKnown body toValue e) ∅) →
      ((item.name? == some name) = true ↔ e.1 = name) := by
    rintro _ e rfl
    rw [Tree.name?, Tree.key?_record_known (unambiguous_entry hbody toValue e) List.mem_cons_self]
    show (some e.1 == some name) = true ↔ e.1 = name
    rw [beq_iff_eq, Option.some.injEq]
  have hlookup : NameMap.lookup name m.entries.reverse = some a := by
    rwa [← NameMap.get?_ofList, NameMap.ofList_entries]
  obtain ⟨item, hfind, rfl⟩ := exists_find?_of_lookup hitems hname hlookup
  rw [entriesValue_eq, Tree.ofValue, Tree.named?, Tree.items?, Option.bind_some,
    Tree.ofItems_eq_map, List.map_map]
  exact hfind

theorem present?_of_mem_items {items : List Tree} {item : Tree} (hitems : t.items? = some items)
    (hitem : item ∈ items) : t.present? ≠ some false := by
  unfold Tree.items? at hitems
  split at hitems
  · simp [Tree.present?]
  · split at hitems
    · cases hitems
      cases hitem
    · cases hitems
  · cases hitems

/-- An entry that is found in the tree was read, and is found in what is written. -/
theorem entry_written {item : Tree} (h : ofTree? t = some config)
    (hentry : t.listed? kind name = some item) :
    ∃ b, entryOfTree? kind.bodyKey kind.absent kind.read item = some (name, b) ∧
      (Tree.ofValue config.toValue).listed? kind name =
        some (Tree.ofValue (.record (entryKnown kind.bodyKey kind.write (name, b)) ∅)) := by
  obtain ⟨members, hmembers, hentries⟩ := entriesOf?_bodies kind h
  obtain ⟨list, hlist, hitem⟩ := Option.bind_eq_some_iff.1 hentry
  obtain ⟨items, hitems, hfind⟩ := Option.bind_eq_some_iff.1 hitem
  obtain ⟨o, ho, hbodies⟩ := entriesOf?_eq_some_iff.1 hentries
  have hpresent := present?_of_mem_items hitems
    (List.mem_reverse.1 (List.mem_of_find?_eq_some hfind))
  obtain ⟨entries, rfl, hread⟩ := Members.exists_of_optional_key hmembers ho hlist hpresent
  rw [Tree.list?, hitems, Option.bind_some] at hread
  obtain ⟨b, hlookup, hb⟩ := exists_lookup_of_find?
    (List.forall₂_reverse_iff.2 (forall₂_of_mapM hread)) named?_eq_some_iff_of_entryOfTree? hfind
  have hget : (kind.bodies config).get? name = some b := by
    rw [← hbodies, NameMap.get?_ofList]
    exact hlookup
  refine ⟨b, hb, ?_⟩
  rw [Tree.listed?, toValue_eq,
    Tree.key?_record_known (holds h).plain (mem_known_bodies kind config), Option.map_some,
    Option.bind_some]
  exact named?_entriesValue kind.bodyKey_ne_name hget

theorem holds_entry (item : Tree) (kind : EntryKind) (e : String × kind.Body) :
    Holds item ["name", kind.bodyKey] false (entryKnown kind.bodyKey kind.write e) ∅ := by
  have hshape : kind.bodyKey ∉ shapelessKeys := by cases kind <;> decide
  refine holds_of_closed (unambiguous_entry kind.bodyKey_ne_name _ e) rfl ?_
  simp only [entryKnown, List.forall_mem_cons]
  exact ⟨filled_some _ (by decide), filled_some _ hshape, List.forall_mem_nil _⟩

theorem body_written {body : Tree} (h : ofTree? t = some config)
    (hbody : t.body? kind name = some body) :
    ∃ b, kind.read body = some b ∧
      (Tree.ofValue config.toValue).body? kind name = some (Tree.ofValue (kind.write b)) := by
  obtain ⟨item, hentry, hkey⟩ := Option.bind_eq_some_iff.1 hbody
  obtain ⟨b, hitem, hwritten⟩ := entry_written h hentry
  obtain ⟨members, hmembers, -, hread⟩ := entryOfTree?_eq_some_iff.1 hitem
  refine ⟨b, Members.read_of_key hmembers hread hkey, ?_⟩
  have hplain := unambiguous_entry kind.bodyKey_ne_name kind.write (name, b)
  rw [Tree.body?, hwritten, Option.bind_some,
    Tree.key?_record_known hplain (List.mem_cons_of_mem _ List.mem_cons_self), Option.map_some]

theorem plugin_written {block : Tree} (h : ofTree? t = some config)
    (hblock : t.plugin? name = some block) (hpresent : block.present? ≠ some false) :
    ∃ p, Plugin.ofTree? block = some p ∧
      (Tree.ofValue config.toValue).plugin? name = some (Tree.ofValue p.toValue) := by
  obtain ⟨body, hbody, hkey⟩ := Option.bind_eq_some_iff.1 hblock
  obtain ⟨user, huser, hwritten⟩ : ∃ u, User.ofTree? body = some u ∧
      (Tree.ofValue config.toValue).body? .user name = some (Tree.ofValue u.toValue) :=
    body_written h hbody
  obtain ⟨members, hmembers, -, hplugin, -⟩ := User.ofTree?_eq_some_iff.1 huser
  obtain ⟨p, hp, hread⟩ := Members.exists_of_optional_key hmembers hplugin hkey hpresent
  have hmem : ("exec", some p.toValue) ∈ user.known := by simp [User.known, hp]
  refine ⟨p, hread, ?_⟩
  rw [Tree.plugin?, hwritten, Option.bind_some, User.toValue_eq,
    Tree.key?_record_known (User.holds huser).plain hmem, Option.map_some]

theorem variable_written {number : Nat} {item : Tree} (h : ofTree? t = some config)
    (hitem : t.record? (.pluginVariable name number) = some item) :
    ∃ v : Variable, (Tree.ofValue config.toValue).record? (.pluginVariable name number) =
      some (Tree.ofValue v.toValue) := by
  obtain ⟨env, henv, hnumber⟩ := Option.bind_eq_some_iff.1 hitem
  obtain ⟨block, hblock, hkey⟩ := Option.bind_eq_some_iff.1 henv
  obtain ⟨items, hitems, hget⟩ := Option.bind_eq_some_iff.1 hnumber
  obtain ⟨p, hp, hwritten⟩ := plugin_written h hblock (Tree.present?_of_key? hkey)
  obtain ⟨members, hmembers, -, -, -, hread, -⟩ := Plugin.ofTree?_eq_some_iff.1 hp
  have hlist := Members.read_of_key hmembers hread hkey
  rw [Tree.list?, hitems, Option.bind_some] at hlist
  have hsame := forall₂_of_mapM hlist
  obtain ⟨hlt, -⟩ := List.getElem?_eq_some_iff.1 hget
  rw [hsame.length_eq] at hlt
  have hlistIf : Plugin.listIf (p.env.map Variable.toValue) =
      some (.sequence (p.env.map Variable.toValue)) := by
    rw [Plugin.listIf, if_neg]
    simpa using List.ne_nil_of_length_pos (Nat.zero_lt_of_lt hlt)
  have hmem : ("env", some (Value.sequence (p.env.map Variable.toValue))) ∈ p.known := by
    simp [Plugin.known, hlistIf]
  refine ⟨p.env[number], ?_⟩
  rw [Tree.record?, hwritten, Option.bind_some, Plugin.toValue_eq,
    Tree.key?_record_known (Plugin.holds hp).plain hmem, Option.map_some, Option.bind_some,
    Tree.ofValue, Tree.items?, Option.bind_some, Tree.ofItems_eq_map, List.map_map,
    List.getElem?_map, List.getElem?_eq_getElem hlt, Option.map_some, Function.comp]

/-- A record in which there is a key was read, and is found in what is written. -/
theorem record_written {r : Record} {tree u : Tree} {key : String} (h : ofTree? t = some config)
    (hrecord : t.record? r = some tree) (hkey : tree.key? key = some u) :
    ∃ known extra, (Tree.ofValue config.toValue).record? r =
        some (Tree.ofValue (.record known extra)) ∧ Holds tree r.keys r.isOpen known extra := by
  cases r with
  | whole =>
    obtain rfl := Option.some.inj hrecord
    exact ⟨_, _, congrArg (some ∘ Tree.ofValue) (toValue_eq config), holds h⟩
  | entry kind name =>
    obtain ⟨b, hb, hwritten⟩ := entry_written h hrecord
    exact ⟨_, _, hwritten, holds_entry tree kind (name, b)⟩
  | body kind name =>
    obtain ⟨b, hb, hwritten⟩ := body_written h hrecord
    obtain ⟨known, extra, hvalue, hholds⟩ := EntryKind.holds hb
    exact ⟨known, extra, hvalue ▸ hwritten, hholds⟩
  | plugin user =>
    obtain ⟨p, hp, hwritten⟩ := plugin_written h hrecord (Tree.present?_of_key? hkey)
    exact ⟨_, _, Plugin.toValue_eq p ▸ hwritten, Plugin.holds hp⟩
  | pluginVariable user number =>
    obtain ⟨v, hwritten⟩ := variable_written h hrecord
    exact ⟨_, _, Variable.toValue_eq v ▸ hwritten, Variable.holds tree v⟩

end Kubeconfig

/-- What becomes of the keys of a record when the kubeconfig is read and written again: one that is
known stays if it carries something, and one that is not known stays with its value in a record that
takes such keys along, and is dropped from any other. -/
theorem carried {t record u : Tree} {config : Kubeconfig} {r : Record} {key : String}
    (h : Kubeconfig.ofTree? t = some config) (hrecord : t.record? r = some record)
    (hkey : record.key? key = some u) :
    ∃ written, (Tree.ofValue config.toValue).record? r = some written ∧
      (key ∈ r.keys → ¬ u.IsIdle key → ∃ v, written.key? key = some (Tree.ofValue v) ∧
        (key ∈ shapelessKeys → Tree.value? true u = some v)) ∧
      (key ∉ r.keys → r.isOpen = true → ∃ v, written.key? key = some (Tree.ofValue v) ∧
        Tree.value? false u = some v) ∧
      (key ∉ r.keys → r.isOpen = false → written.key? key = none) := by
  obtain ⟨known, extra, hwritten, hholds⟩ := Kubeconfig.record_written h hrecord hkey
  refine ⟨_, hwritten, fun hknown hidle ↦ ?_, fun hother hopen ↦ ?_, fun hother hclosed ↦ ?_⟩
  · rw [← hholds.keys_eq] at hknown
    obtain ⟨⟨_, value⟩, hfield, rfl⟩ := List.mem_map.1 hknown
    obtain ⟨v, rfl, hvalue⟩ := hholds.filled _ hfield u hkey hidle
    exact ⟨v, Tree.key?_record_known hholds.plain hfield, hvalue⟩
  · obtain ⟨v, hvalue, hextra⟩ := hholds.others hopen key u hother hkey
    refine ⟨v, ?_, hvalue⟩
    rw [Tree.key?_record_other (hholds.keys_eq ▸ hother), hextra, Option.map_some]
  · rw [Tree.key?_record_other (hholds.keys_eq ▸ hother), hholds.closed hclosed]
    rfl

/-- A user whose credential plugin has a key without a meaning. -/
def pluginTree : Tree :=
  .ofJson (.object [("users", .array [.object [("name", .string "a"), ("user", .object
    [("exec", .object [("command", .string "c"), ("interactiveMode", .string "Never")])])]])])

theorem carried_plugin :
    ∃ config record, Kubeconfig.ofTree? pluginTree = some config ∧
      pluginTree.record? (.plugin "a") = some record ∧
      record.key? "interactiveMode" = some (.leaf none (.quoted "Never")) ∧
      ∃ written, (Tree.ofValue config.toValue).record? (.plugin "a") = some written ∧
        ∃ v, written.key? "interactiveMode" = some (Tree.ofValue v) ∧
          Tree.value? false (.leaf none (.quoted "Never")) = some v := by
  have hread : (Kubeconfig.ofTree? pluginTree).isSome = true := by decide
  obtain ⟨config, hconfig⟩ := Option.isSome_iff_exists.1 hread
  obtain ⟨record, hrecord, hkey⟩ : ∃ record, pluginTree.record? (.plugin "a") = some record ∧
      record.key? "interactiveMode" = some (.leaf none (.quoted "Never")) := ⟨_, rfl, rfl⟩
  obtain ⟨written, hwritten, -, hopen, -⟩ := carried hconfig hrecord hkey
  exact ⟨config, record, hconfig, hrecord, hkey, written, hwritten, hopen (by decide) rfl⟩

/-- An entry of a list with a key without a meaning. -/
def entryTree : Tree :=
  .ofJson (.object [("clusters", .array [.object [("name", .string "a"), ("junk", .int 1)]])])

/-- Such a key is dropped. -/
theorem entryTree_dropped :
    ∃ config, Kubeconfig.ofTree? entryTree = some config ∧
      (entryTree.listed? .cluster "a").bind (·.key? "junk") = some (.leaf none (.int 1)) ∧
      ((Tree.ofValue config.toValue).listed? .cluster "a").bind (·.key? "junk") = none :=
  ⟨{ apiVersion := none, kind := none, clusters := NameMap.empty.insert "a" {} }, by decide, rfl,
    rfl⟩

end Wayfinder
