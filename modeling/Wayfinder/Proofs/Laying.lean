import Mathlib.Data.List.Induction
import Mathlib.Data.List.Nodup
import Wayfinder.Kubeconfig.Layout

/-!
How a record is laid out: its known fields that have a value, under their keys, and after them the
keys without a meaning. Main statements: every record of a kubeconfig is laid out in this way
(`Cluster.toValue_eq` and the like), a known field is found again under its key
(`read?_written`, `optional?_written`), and so are the others (`others?_written`), as long as none
of them has a known key.
-/

set_option autoImplicit false
set_option relaxedAutoImplicit false

namespace Wayfinder

/-! ### Maps of lists -/

namespace NameMap

variable {α : Type} {l : List (String × α)} {m : NameMap α} {name : String} {value : α}

theorem ofList_append_singleton (l : List (String × α)) (e : String × α) :
    ofList (l ++ [e]) = (ofList l).insert e.1 e.2 := by
  rw [ofList, List.foldl_append]
  rfl

/-- The last entry of a name counts. -/
theorem get?_ofList (l : List (String × α)) (name : String) :
    (ofList l).get? name = lookup name l.reverse := by
  induction l using List.reverseRecOn with
  | nil => rfl
  | append_singleton l e ih =>
    obtain ⟨key, value⟩ := e
    rw [ofList_append_singleton, get?_insert, List.reverse_append, List.reverse_singleton,
      List.singleton_append, lookup, ih]

theorem mem_of_mem_ofList {e : String × α} (h : e ∈ (ofList l).entries) : e ∈ l := by
  have hget := get?_eq_some_iff.2 h
  rw [get?_ofList] at hget
  exact List.mem_reverse.1 (mem_of_lookup hget)

theorem exists_lookup_of_mem (h : (name, value) ∈ l) : ∃ found, lookup name l = some found := by
  induction l with
  | nil => cases h
  | cons e rest ih =>
    obtain ⟨key, other⟩ := e
    rw [lookup]
    split
    · exact ⟨other, rfl⟩
    · next hkey =>
      rcases List.mem_cons.1 h with heq | hrest
      · exact absurd (Prod.mk.inj heq).1.symm hkey
      · exact ih hrest

theorem map_id (m : NameMap α) : m.map id = m :=
  ext_get? fun name ↦ by rw [get?_map, Option.map_id, id_eq]

theorem ofList_entries (m : NameMap α) : ofList m.entries = m := by
  refine ext_get? fun name ↦ Option.ext fun value ↦ ?_
  rw [get?_ofList]
  constructor
  · intro hlookup
    exact get?_eq_some_iff.2 (List.mem_reverse.1 (mem_of_lookup hlookup))
  · intro hget
    obtain ⟨found, hfound⟩ :=
      exists_lookup_of_mem (List.mem_reverse.2 (get?_eq_some_iff.1 hget))
    have hsame := get?_eq_some_iff.2 (List.mem_reverse.1 (mem_of_lookup hfound))
    rw [hfound, ← hsame, hget]

end NameMap

/-! ### Lists that are read item by item -/

section Lists

variable {α β : Type}

/-- What is read of items that were written. -/
theorem mapM_map_of_read {γ : Type} {write : α → β} {read : β → Option γ} {f : α → γ} {l : List α}
    (h : ∀ a ∈ l, read (write a) = some (f a)) : (l.map write).mapM read = some (l.map f) := by
  induction l with
  | nil => rfl
  | cons a rest ih =>
    rw [List.map_cons, List.mapM_cons, h a List.mem_cons_self,
      ih fun b hb ↦ h b (List.mem_cons_of_mem _ hb)]
    rfl

theorem forall₂_of_mapM {read : α → Option β} {l : List α} {r : List β} (h : l.mapM read = some r) :
    List.Forall₂ (fun a b ↦ read a = some b) l r := by
  induction l generalizing r with
  | nil =>
    obtain rfl := Option.some.inj h
    exact List.Forall₂.nil
  | cons a rest ih =>
    rw [List.mapM_cons] at h
    obtain ⟨b, hb, hrest⟩ := Option.bind_eq_some_iff.1 h
    obtain ⟨more, hmore, hr⟩ := Option.bind_eq_some_iff.1 hrest
    obtain rfl := Option.some.inj hr
    exact List.Forall₂.cons hb (ih hmore)

theorem exists_mem_of_forall₂ {R : α → β → Prop} {l : List α} {r : List β} (h : List.Forall₂ R l r)
    {b : β} (hb : b ∈ r) : ∃ a ∈ l, R a b := by
  induction h with
  | nil => cases hb
  | cons hfirst hrest ih =>
    rcases List.mem_cons.1 hb with rfl | hb
    · exact ⟨_, List.mem_cons_self, hfirst⟩
    · obtain ⟨a, ha, hab⟩ := ih hb
      exact ⟨a, List.mem_cons_of_mem _ ha, hab⟩

end Lists

/-! ### Records -/

/-- The known fields that have a value. -/
def filled : List (String × Option Value) → List (String × Value)
  | [] => []
  | (_, none) :: rest => filled rest
  | (name, some value) :: rest => (name, value) :: filled rest

/-- The members of a record: the known fields that have a value, and then the others. -/
def laid (known : List (String × Option Value)) (extra : Extra) : List (String × Value) :=
  filled known ++ extra.entries

/-- A record as a value. -/
def Value.record (known : List (String × Option Value)) (extra : Extra) : Value :=
  .mapping ((laid known extra).map fun e ↦ (.string e.1, e.2))

/-- A record as it is put together from single members. -/
theorem Value.record_eq (known : List (String × Option Value)) (extra : Extra) :
    record known extra =
      .mapping (known.flatMap (fun e ↦ memberIf e.1 e.2) ++ extra.members) := by
  have hfilled : (filled known).map (fun e ↦ (Value.string e.1, e.2)) =
      known.flatMap fun e ↦ memberIf e.1 e.2 := by
    induction known with
    | nil => rfl
    | cons e rest ih =>
      rw [List.flatMap_cons, ← ih]
      obtain ⟨name, _ | value⟩ := e <;> rfl
  rw [record, laid, List.map_append, hfilled, Extra.members]

/-- What is read of members that were written. -/
def Members.written (fields : List (String × Value)) : Members :=
  fields.map fun e ↦ (e.1, Tree.ofValue e.2)

/-- The keys without a meaning have none of the known keys. -/
def Extra.Apart (extra : Extra) (keys : List String) : Prop := ∀ e ∈ extra.entries, e.1 ∉ keys

/-- No two members of a record have one key. -/
structure Unambiguous (known : List (String × Option Value)) (extra : Extra) : Prop where
  nodup : (known.map (·.1)).Nodup
  apart : extra.Apart (known.map (·.1))

section Records

variable {α : Type} {known : List (String × Option Value)} {extra : Extra} {name : String}
  {value : Option Value}

theorem Tree.members?_ofValue_record (known : List (String × Option Value)) (extra : Extra) :
    (Tree.ofValue (.record known extra)).members? = some (Members.written (laid known extra)) := by
  rw [Value.record, Tree.ofValue, Tree.members?, Tree.entries?, Option.bind_some]
  induction laid known extra with
  | nil => rfl
  | cons e rest ih =>
    rw [List.map_cons, Tree.ofEntries, List.mapM_cons, ih]
    rfl

theorem Tree.ofItems_eq_map (items : List Value) : ofItems items = items.map ofValue := by
  induction items with
  | nil => rfl
  | cons item rest ih => rw [ofItems, ih, List.map_cons]

theorem Tree.list?_ofValue_sequence {β : Type} {l : List α} {write : α → Value}
    {read : Tree → Option β} {f : α → β} (hread : ∀ a ∈ l, read (ofValue (write a)) = some (f a)) :
    list? read (ofValue (.sequence (l.map write))) = some (l.map f) := by
  rw [ofValue, list?, items?, Option.bind_some, ofItems_eq_map, List.map_map]
  exact mapM_map_of_read hread

theorem mem_filled {v : Value} : (name, v) ∈ filled known ↔ (name, some v) ∈ known := by
  induction known with
  | nil => simp [filled]
  | cons e rest ih =>
    obtain ⟨key, _ | other⟩ := e <;> simp [filled, ih]

theorem filter_filled (hnodup : (known.map (·.1)).Nodup) (hmem : (name, value) ∈ known) :
    (filled known).filter (fun e ↦ e.1 == name) = (value.map (name, ·)).toList := by
  induction known with
  | nil => cases hmem
  | cons e rest ih =>
    rw [List.map_cons, List.nodup_cons] at hnodup
    rcases List.mem_cons.1 hmem with rfl | hrest
    · -- No later field has this key.
      have hlater : (filled rest).filter (fun e ↦ e.1 == name) = [] := by
        refine List.filter_eq_nil_iff.2 fun e he hname ↦ hnodup.1 ?_
        exact List.mem_map.2 ⟨_, mem_filled.1 he, beq_iff_eq.1 hname⟩
      cases value with
      | none => rw [filled, hlater]; rfl
      | some v => rw [filled, List.filter_cons, if_pos (beq_self_eq_true name), hlater]; rfl
    · have hne : ¬ (e.1 == name) = true := by
        rw [beq_iff_eq]
        rintro rfl
        exact hnodup.1 (List.mem_map.2 ⟨_, hrest, rfl⟩)
      rw [← ih hnodup.2 hrest]
      obtain ⟨key, _ | other⟩ := e
      · rw [filled]
      · rw [filled, List.filter_cons, if_neg hne]

theorem filter_laid (h : Unambiguous known extra) (hmem : (name, value) ∈ known) :
    (laid known extra).filter (fun e ↦ e.1 == name) = (value.map (name, ·)).toList := by
  have hextra : extra.entries.filter (fun e ↦ e.1 == name) = [] := by
    refine List.filter_eq_nil_iff.2 fun e he hname ↦ h.apart e he ?_
    exact List.mem_map.2 ⟨_, hmem, (beq_iff_eq.1 hname).symm⟩
  rw [laid, List.filter_append, hextra, List.append_nil, filter_filled h.nodup hmem]

namespace Members

/-- What is made of a member that is there. -/
theorem exists_of_read? {members : Members} {absent : Option α} {read : Tree → Option α} {a : α}
    (h : members.read? name absent read = some a) :
    absent = some a ∨ ∃ t, (name, t) ∈ members ∧ read t = some a := by
  unfold read? at h
  split at h
  · exact Or.inl h
  · next m hfilter =>
    have hm : m ∈ members.filter fun m ↦ m.1 == name := hfilter ▸ List.mem_singleton_self m
    obtain ⟨hmem, hname⟩ := List.mem_filter.1 hm
    obtain rfl := beq_iff_eq.1 hname
    exact Or.inr ⟨m.2, hmem, h⟩
  · cases h

theorem exists_of_optional? {members : Members} {read : Tree → Option α} {a : α}
    (h : members.optional? name read = some (some a)) :
    ∃ t, (name, t) ∈ members ∧ read t = some a := by
  rcases exists_of_read? h with habsent | ⟨t, hmem, hread⟩
  · cases Option.some.inj habsent
  · refine ⟨t, hmem, ?_⟩
    unfold Tree.optional at hread
    split at hread
    · cases hread
    · cases hread
    · obtain ⟨b, hb, hsame⟩ := Option.map_eq_some_iff.1 hread
      rwa [← Option.some.inj hsame]

/-- A known field is found again under its key. -/
theorem read?_written (h : Unambiguous known extra) (hmem : (name, value) ∈ known)
    (absent : Option α) (read : Tree → Option α) :
    (written (laid known extra)).read? name absent read =
      match value with
      | none => absent
      | some v => read (Tree.ofValue v) := by
  have hfilter : (written (laid known extra)).filter (fun m ↦ m.1 == name) =
      written ((value.map (name, ·)).toList) := by
    rw [written, List.filter_map, ← filter_laid h hmem]
    rfl
  rw [read?, hfilter]
  cases value <;> rfl

theorem optional?_written {a : Option α} {write : α → Value} {read : Tree → Option α}
    (h : Unambiguous known extra) (hmem : (name, a.map write) ∈ known)
    (hread : ∀ v, a = some v → (Tree.ofValue (write v)).present? = some true ∧
      read (Tree.ofValue (write v)) = some v) :
    (written (laid known extra)).optional? name read = some a := by
  rw [optional?, read?_written h hmem]
  cases a with
  | none => rfl
  | some v =>
    obtain ⟨hpresent, hvalue⟩ := hread v rfl
    simp only [Option.map_some, Tree.optional, hpresent, hvalue]

theorem read?_written_text {text : String} (h : Unambiguous known extra)
    (hmem : (name, some (.string text)) ∈ known) (absent : Option String) :
    (written (laid known extra)).read? name absent Tree.text? = some text :=
  read?_written h hmem absent Tree.text?

theorem optional?_written_text {text : Option String} (h : Unambiguous known extra)
    (hmem : (name, text.map .string) ∈ known) :
    (written (laid known extra)).optional? name Tree.text? = some text :=
  optional?_written h hmem fun _ _ ↦ ⟨rfl, rfl⟩

theorem optional?_written_bool {b : Option Bool} (h : Unambiguous known extra)
    (hmem : (name, b.map .bool) ∈ known) :
    (written (laid known extra)).optional? name Tree.bool? = some b :=
  optional?_written h hmem fun _ _ ↦ ⟨rfl, rfl⟩

/-- A list that is left out when it is empty is found again. -/
theorem read?_written_list {l : List α} {write : α → Value} {read : Tree → Option α}
    (h : Unambiguous known extra) (hmem : (name, Plugin.listIf (l.map write)) ∈ known)
    (hread : ∀ a ∈ l, read (Tree.ofValue (write a)) = some a) :
    (written (laid known extra)).read? name (some []) (Tree.list? read) = some l := by
  rw [read?_written h hmem]
  cases l with
  | nil => rfl
  | cons a rest =>
    have hlist := Tree.list?_ofValue_sequence (f := id) hread
    rwa [List.map_id] at hlist

/-- The keys without a meaning are found again, with what they carry. -/
theorem others?_written (h : Unambiguous known extra)
    (hread : ∀ e ∈ extra.entries, Tree.value? false (Tree.ofValue e.2) = some e.2) :
    (written (laid known extra)).others? (known.map (·.1)) = some extra := by
  have hknown : (filled known).filter (fun e ↦ !(known.map (·.1)).contains e.1) = [] := by
    refine List.filter_eq_nil_iff.2 fun e he ↦ ?_
    have hmem : e.1 ∈ known.map (·.1) := List.mem_map.2 ⟨_, mem_filled.1 he, rfl⟩
    simpa using hmem
  have hextra : extra.entries.filter (fun e ↦ !(known.map (·.1)).contains e.1) =
      extra.entries :=
    List.filter_eq_self.2 fun e he ↦ by simpa using h.apart e he
  have hfilter : (written (laid known extra)).filter (fun m ↦ !(known.map (·.1)).contains m.1) =
      written extra.entries := by
    rw [written, List.filter_map, laid, Function.comp_def, List.filter_append, hknown, hextra,
      List.nil_append, written]
  have hmap : (written extra.entries).mapM (fun m ↦
      (Tree.value? false m.2).map fun value ↦ (m.1, value)) = some (extra.entries.map id) :=
    mapM_map_of_read fun e he ↦ by simp only [hread e he, Option.map_some, id_eq]
  rw [others?, hfilter, hmap, Option.map_some, List.map_id, NameMap.ofList_entries]

end Members

end Records

/-! ### The records of a kubeconfig -/

theorem Extra.apart_empty (keys : List String) : (∅ : Extra).Apart keys :=
  fun _ he ↦ absurd he List.not_mem_nil

namespace Cluster

/-- The known fields of a cluster. -/
def known (c : Cluster) : List (String × Option Value) :=
  [("server", some (.string c.server)),
    ("certificate-authority-data", c.authorityData.map .string),
    ("certificate-authority", c.authorityFile.map .string),
    ("insecure-skip-tls-verify", c.skipVerification.map .bool),
    ("tls-server-name", c.tlsServerName.map .string)]

theorem toValue_eq (c : Cluster) : c.toValue = .record c.known c.extra := by
  simp only [toValue, Value.record_eq, known, List.flatMap_cons, List.flatMap_nil,
    List.append_assoc, List.append_nil]
  rfl

theorem ofTree?_eq_some_iff {t : Tree} {c : Cluster} :
    ofTree? t = some c ↔ ∃ members : Members, t.members? = some members ∧
      members.read? "server" (some "") Tree.text? = some c.server ∧
      members.optional? "certificate-authority-data" Tree.text? = some c.authorityData ∧
      members.optional? "certificate-authority" Tree.text? = some c.authorityFile ∧
      members.optional? "insecure-skip-tls-verify" Tree.bool? = some c.skipVerification ∧
      members.optional? "tls-server-name" Tree.text? = some c.tlsServerName ∧
      members.others? keys = some c.extra := by
  simp only [ofTree?, Option.bind_eq_bind, Option.bind_eq_some_iff, Option.some.injEq]
  constructor
  · rintro ⟨members, hmembers, server, hserver, data, hdata, file, hfile, skip, hskip, name, hname,
      extra, hextra, rfl⟩
    exact ⟨members, hmembers, hserver, hdata, hfile, hskip, hname, hextra⟩
  · rintro ⟨members, hmembers, hserver, hdata, hfile, hskip, hname, hextra⟩
    exact ⟨members, hmembers, _, hserver, _, hdata, _, hfile, _, hskip, _, hname, _, hextra, rfl⟩

end Cluster

namespace Variable

/-- The fields of a variable. -/
def known (v : Variable) : List (String × Option Value) :=
  [("name", some (.string v.name)), ("value", some (.string v.value))]

theorem toValue_eq (v : Variable) : v.toValue = .record v.known ∅ := rfl

theorem ofTree?_eq_some_iff {t : Tree} {v : Variable} :
    ofTree? t = some v ↔ ∃ members : Members, t.members? = some members ∧
      members.read? "name" none Tree.text? = some v.name ∧
      members.read? "value" none Tree.text? = some v.value := by
  simp only [ofTree?, Option.bind_eq_bind, Option.bind_eq_some_iff, Option.some.injEq]
  constructor
  · rintro ⟨members, hmembers, name, hname, value, hvalue, rfl⟩
    exact ⟨members, hmembers, hname, hvalue⟩
  · rintro ⟨members, hmembers, hname, hvalue⟩
    exact ⟨members, hmembers, _, hname, _, hvalue, rfl⟩

end Variable

namespace Plugin

/-- The known fields of a credential plugin. -/
def known (p : Plugin) : List (String × Option Value) :=
  [("apiVersion", some (.string p.apiVersion)),
    ("command", some (.string p.command)),
    ("args", listIf (p.args.map .string)),
    ("env", listIf (p.env.map Variable.toValue))]

theorem toValue_eq (p : Plugin) : p.toValue = .record p.known p.extra := by
  simp only [toValue, Value.record_eq, known, List.flatMap_cons, List.flatMap_nil,
    List.append_assoc, List.append_nil]
  rfl

theorem ofTree?_eq_some_iff {t : Tree} {p : Plugin} :
    ofTree? t = some p ↔ ∃ members : Members, t.members? = some members ∧
      members.read? "apiVersion" (some "") Tree.text? = some p.apiVersion ∧
      members.read? "command" none Tree.text? = some p.command ∧
      members.read? "args" (some []) (Tree.list? Tree.text?) = some p.args ∧
      members.read? "env" (some []) (Tree.list? Variable.ofTree?) = some p.env ∧
      members.others? keys = some p.extra := by
  simp only [ofTree?, Option.bind_eq_bind, Option.bind_eq_some_iff, Option.some.injEq]
  constructor
  · rintro ⟨members, hmembers, version, hversion, command, hcommand, args, hargs, env, henv, extra,
      hextra, rfl⟩
    exact ⟨members, hmembers, hversion, hcommand, hargs, henv, hextra⟩
  · rintro ⟨members, hmembers, hversion, hcommand, hargs, henv, hextra⟩
    exact ⟨members, hmembers, _, hversion, _, hcommand, _, hargs, _, henv, _, hextra, rfl⟩

end Plugin

namespace User

/-- The known fields of a user. -/
def known (u : User) : List (String × Option Value) :=
  [("token", u.token.map .string),
    ("exec", u.plugin.map Plugin.toValue),
    ("client-certificate-data", u.certificateData.map .string),
    ("client-key-data", u.keyData.map .string)]

theorem toValue_eq (u : User) : u.toValue = .record u.known u.extra := by
  simp only [toValue, Value.record_eq, known, List.flatMap_cons, List.flatMap_nil,
    List.append_assoc, List.append_nil]

theorem ofTree?_eq_some_iff {t : Tree} {u : User} :
    ofTree? t = some u ↔ ∃ members : Members, t.members? = some members ∧
      members.optional? "token" Tree.text? = some u.token ∧
      members.optional? "exec" Plugin.ofTree? = some u.plugin ∧
      members.optional? "client-certificate-data" Tree.text? = some u.certificateData ∧
      members.optional? "client-key-data" Tree.text? = some u.keyData ∧
      members.others? keys = some u.extra := by
  simp only [ofTree?, Option.bind_eq_bind, Option.bind_eq_some_iff, Option.some.injEq]
  constructor
  · rintro ⟨members, hmembers, token, htoken, plugin, hplugin, certificate, hcertificate, key, hkey,
      extra, hextra, rfl⟩
    exact ⟨members, hmembers, htoken, hplugin, hcertificate, hkey, hextra⟩
  · rintro ⟨members, hmembers, htoken, hplugin, hcertificate, hkey, hextra⟩
    exact ⟨members, hmembers, _, htoken, _, hplugin, _, hcertificate, _, hkey, _, hextra, rfl⟩

end User

namespace Context

/-- The known fields of a context. -/
def known (c : Context) : List (String × Option Value) :=
  [("cluster", some (.string c.cluster)),
    ("user", some (.string c.user)),
    ("namespace", c.namespaceName.map .string),
    ("extensions", c.extensions)]

theorem toValue_eq (c : Context) : c.toValue = .record c.known c.extra := by
  simp only [toValue, Value.record_eq, known, List.flatMap_cons, List.flatMap_nil,
    List.append_assoc, List.append_nil]
  rfl

theorem ofTree?_eq_some_iff {t : Tree} {c : Context} :
    ofTree? t = some c ↔ ∃ members : Members, t.members? = some members ∧
      members.read? "cluster" (some "") Tree.text? = some c.cluster ∧
      members.read? "user" (some "") Tree.text? = some c.user ∧
      members.optional? "namespace" Tree.text? = some c.namespaceName ∧
      members.optional? "extensions" (Tree.value? true) = some c.extensions ∧
      members.others? keys = some c.extra := by
  simp only [ofTree?, Option.bind_eq_bind, Option.bind_eq_some_iff, Option.some.injEq]
  constructor
  · rintro ⟨members, hmembers, cluster, hcluster, user, huser, name, hname, extensions, hextensions,
      extra, hextra, rfl⟩
    exact ⟨members, hmembers, hcluster, huser, hname, hextensions, hextra⟩
  · rintro ⟨members, hmembers, hcluster, huser, hname, hextensions, hextra⟩
    exact ⟨members, hmembers, _, hcluster, _, huser, _, hname, _, hextensions, _, hextra, rfl⟩

end Context

namespace Kubeconfig

variable {α : Type}

/-- The fields of an entry of a list. -/
def entryKnown (body : String) (toValue : α → Value) (e : String × α) :
    List (String × Option Value) :=
  [("name", some (.string e.1)), (body, some (toValue e.2))]

theorem entriesValue_eq (body : String) (toValue : α → Value) (m : NameMap α) :
    entriesValue body toValue m =
      .sequence (m.entries.map fun e ↦ .record (entryKnown body toValue e) ∅) :=
  rfl

theorem entryOfTree?_eq_some_iff {body : String} {absent : α} {read : Tree → Option α} {t : Tree}
    {e : String × α} :
    entryOfTree? body absent read t = some e ↔ ∃ members : Members, t.members? = some members ∧
      members.read? "name" none Tree.text? = some e.1 ∧
      members.read? body (some absent) read = some e.2 := by
  simp only [entryOfTree?, Option.bind_eq_bind, Option.bind_eq_some_iff, Option.some.injEq]
  constructor
  · rintro ⟨members, hmembers, name, hname, value, hvalue, rfl⟩
    exact ⟨members, hmembers, hname, hvalue⟩
  · rintro ⟨members, hmembers, hname, hvalue⟩
    exact ⟨members, hmembers, _, hname, _, hvalue, rfl⟩

theorem entriesOf?_eq_some_iff {members : Members} {list body : String} {absent : α}
    {read : Tree → Option α} {m : NameMap α} :
    entriesOf? members list body absent read = some m ↔ ∃ entries,
      members.optional? list (Tree.list? (entryOfTree? body absent read)) = some entries ∧
      NameMap.ofList (entries.getD []) = m := by
  simp only [entriesOf?, Option.bind_eq_bind, Option.bind_eq_some_iff, Option.some.injEq]

theorem unambiguous_entry {body : String} (hbody : body ≠ "name") (toValue : α → Value)
    (e : String × α) : Unambiguous (entryKnown body toValue e) ∅ where
  nodup := by simp [entryKnown, hbody.symm]
  apart := Extra.apart_empty _

/-- A list of entries is found again, its bodies as they are read. -/
theorem entriesOf?_written {known : List (String × Option Value)} {extra : Extra} {m : NameMap α}
    {list body : String} {toValue : α → Value} {absent : α} {read : Tree → Option α} {f : α → α}
    (h : Unambiguous known extra) (hmem : (list, some (entriesValue body toValue m)) ∈ known)
    (hbody : body ≠ "name")
    (hread : ∀ e ∈ m.entries, read (Tree.ofValue (toValue e.2)) = some (f e.2)) :
    entriesOf? (Members.written (laid known extra)) list body absent read = some (m.map f) := by
  have hentry : ∀ e ∈ m.entries, entryOfTree? body absent read
      (Tree.ofValue (.record (entryKnown body toValue e) ∅)) = some (e.1, f e.2) := by
    intro e he
    have hplain := unambiguous_entry hbody toValue e
    refine entryOfTree?_eq_some_iff.2 ⟨_, Tree.members?_ofValue_record _ _,
      Members.read?_written_text hplain (by simp [entryKnown]) _, ?_⟩
    exact (Members.read?_written hplain (List.mem_cons_of_mem _ List.mem_cons_self) _ _).trans
      (hread e he)
  have hlist : Tree.list? (entryOfTree? body absent read)
      (Tree.ofValue (entriesValue body toValue m)) = some (m.map f).entries := by
    rw [entriesValue_eq]
    exact Tree.list?_ofValue_sequence hentry
  have hpresent : (Tree.ofValue (entriesValue body toValue m)).present? = some true := rfl
  refine entriesOf?_eq_some_iff.2 ⟨some (m.map f).entries, ?_, NameMap.ofList_entries _⟩
  rw [Members.optional?, Members.read?_written h hmem]
  simp only [Tree.optional, hpresent, hlist, Option.map_some]

theorem entriesOf?_written_self {known : List (String × Option Value)} {extra : Extra}
    {m : NameMap α} {list body : String} {toValue : α → Value} {absent : α}
    {read : Tree → Option α} (h : Unambiguous known extra)
    (hmem : (list, some (entriesValue body toValue m)) ∈ known) (hbody : body ≠ "name")
    (hread : ∀ e ∈ m.entries, read (Tree.ofValue (toValue e.2)) = some e.2) :
    entriesOf? (Members.written (laid known extra)) list body absent read = some m := by
  rw [entriesOf?_written (f := id) h hmem hbody hread, NameMap.map_id]

/-- The known fields of a kubeconfig. -/
def known (c : Kubeconfig) : List (String × Option Value) :=
  [("apiVersion", c.apiVersion.map .string),
    ("kind", c.kind.map .string),
    ("preferences", c.preferences),
    ("clusters", some (entriesValue "cluster" Cluster.toValue c.clusters)),
    ("users", some (entriesValue "user" User.toValue c.users)),
    ("contexts", some (entriesValue "context" Context.toValue c.contexts)),
    ("current-context", some (.string c.current)),
    ("extensions", c.extensions)]

theorem toValue_eq (c : Kubeconfig) : c.toValue = .record c.known c.extra := by
  simp only [toValue, Value.record_eq, known, List.flatMap_cons, List.flatMap_nil,
    List.append_assoc, List.append_nil]
  rfl

theorem ofTree?_eq_some_iff {t : Tree} {c : Kubeconfig} :
    ofTree? t = some c ↔ ∃ members : Members, t.members? = some members ∧
      members.optional? "apiVersion" Tree.text? = some c.apiVersion ∧
      members.optional? "kind" Tree.text? = some c.kind ∧
      members.optional? "preferences" (Tree.value? true) = some c.preferences ∧
      entriesOf? members "clusters" "cluster" {} Cluster.ofTree? = some c.clusters ∧
      entriesOf? members "users" "user" {} User.ofTree? = some c.users ∧
      entriesOf? members "contexts" "context" {} Context.ofTree? = some c.contexts ∧
      members.read? "current-context" (some "") Tree.text? = some c.current ∧
      members.optional? "extensions" (Tree.value? true) = some c.extensions ∧
      members.others? keys = some c.extra := by
  simp only [ofTree?, Option.bind_eq_bind, Option.bind_eq_some_iff, Option.some.injEq]
  constructor
  · rintro ⟨members, hmembers, version, hversion, kind, hkind, preferences, hpreferences, clusters,
      hclusters, users, husers, contexts, hcontexts, current, hcurrent, extensions, hextensions,
      extra, hextra, rfl⟩
    exact ⟨members, hmembers, hversion, hkind, hpreferences, hclusters, husers, hcontexts, hcurrent,
      hextensions, hextra⟩
  · rintro ⟨members, hmembers, hversion, hkind, hpreferences, hclusters, husers, hcontexts,
      hcurrent, hextensions, hextra⟩
    exact ⟨members, hmembers, _, hversion, _, hkind, _, hpreferences, _, hclusters, _, husers, _,
      hcontexts, _, hcurrent, _, hextensions, _, hextra, rfl⟩

end Kubeconfig

end Wayfinder
