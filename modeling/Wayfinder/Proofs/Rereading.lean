import Wayfinder.Kubeconfig.Document
import Wayfinder.Proofs.Laying
import Wayfinder.Proofs.Asking
import Wayfinder.Proofs.Merging

/-!
Reading undoes writing. Main statement: for a kubeconfig that was read, or that came about from such
ones and from those of places by taking in targets and making contexts current, what is written is
read again, and only preferences and extensions that are an explicit absent value are lost
(`Kubeconfig.reread_obtained`). What carries this is a condition on kubeconfigs: their values are
read back, and no key without a meaning has the name of a known one (`Kubeconfig.Clean`). Reading
yields it (`clean_of_ofTree?`), every step of a switch keeps it, and it is enough
(`ofTree?_toValue`).
-/

set_option autoImplicit false
set_option relaxedAutoImplicit false

namespace Wayfinder

/-! ### Values -/

namespace Tree

variable {b : Bool} {tag : String} {v w : Value} {s : String}

/-- A value is read back from the tree that is written for it. -/
def Rereads (b : Bool) (v : Value) : Prop := value? b (ofValue v) = some v

/-- A value that is read back and stands under no tag. -/
structure Bare (b : Bool) (v : Value) : Prop where
  rereads : Rereads b v
  untagged : ∀ tag w, v ≠ .tagged tag w

theorem bare_null (b : Bool) : Bare b .null := ⟨rfl, nofun⟩

theorem bare_bool (b x : Bool) : Bare b (.bool x) := ⟨rfl, nofun⟩

theorem bare_int (b : Bool) {n : Int} (h : Plain.fits n = true) : Bare b (.int n) :=
  ⟨by rw [Rereads, ofValue, value?, scalar?, if_pos h]; rfl, nofun⟩

theorem bare_float (b : Bool) (x : Binary64) : Bare b (.float x) := ⟨rfl, nofun⟩

theorem bare_string (b : Bool) (s : String) : Bare b (.string s) := ⟨rfl, nofun⟩

theorem bare_of_resolve? (b : Bool) (h : Plain.resolve? s = some v) : Bare b v := by
  unfold Plain.resolve? at h
  split at h
  · cases h
    exact bare_null b
  · split at h
    · cases h
      exact bare_bool b _
    · split at h
      · split at h
        · next hfits =>
          cases h
          exact bare_int b hfits
        · cases h
      · split at h
        · cases h
          exact bare_float b _
        · cases h
          exact bare_string b s

theorem bare_of_taggedScalar? (b : Bool) (h : taggedScalar? tag s = some v) : Bare b v := by
  unfold taggedScalar? at h
  split at h
  · obtain ⟨x, -, rfl⟩ := Option.map_eq_some_iff.1 h
    exact bare_bool b x
  · split at h
    · obtain ⟨n, hn, rfl⟩ := Option.map_eq_some_iff.1 h
      exact bare_int b (Option.filter_eq_some_iff.1 hn).2
    · split at h
      · obtain ⟨x, -, rfl⟩ := Option.map_eq_some_iff.1 h
        exact bare_float b x
      · split at h
        · split at h
          · cases h
            exact bare_null b
          · cases h
        · cases h
          exact bare_string b s

/-- A value under no tag gets the tag that its tree is put under. -/
theorem Bare.value?_withTag (h : Bare b v) (tag : String) (hlocal : isLocalTag tag = true) :
    value? b ((ofValue v).withTag tag) = underTag b (some tag) v := by
  have hrereads := h.rereads
  unfold Rereads at hrereads
  cases v with
  | null => rfl
  | bool x => rfl
  | int n =>
    rw [ofValue, value?, scalar?] at hrereads
    rw [ofValue, withTag, value?, scalar?]
    split at hrereads
    · next hfits => rw [if_pos hfits]
    · cases hrereads
  | float x => rfl
  | string s => rw [ofValue, withTag, value?, scalar?, if_pos hlocal]
  | sequence items =>
    rw [ofValue, value?] at hrereads
    rw [ofValue, withTag, value?]
    cases hitems : values? b (ofItems items) with
    | none => simp [hitems] at hrereads
    | some read =>
      obtain rfl : read = items := by simpa [hitems, underTag] using hrereads
      rfl
  | mapping entries =>
    rw [ofValue, value?] at hrereads
    rw [ofValue, withTag, value?]
    cases hentries : entryValues? b (ofEntries entries) with
    | none => simp [hentries] at hrereads
    | some read =>
      simp only [hentries] at hrereads
      split at hrereads
      · next hdistinct =>
        obtain rfl : read = entries := by simpa [underTag] using hrereads
        simp only [hdistinct, if_true]
      · cases hrereads
  | tagged other w => exact absurd rfl (h.untagged other w)

theorem Bare.rereads_underTag (h : Bare b v) {tag : Option String}
    (hw : underTag b tag v = some w) : Rereads b w := by
  cases tag with
  | none =>
    obtain rfl : v = w := Option.some.inj hw
    exact h.rereads
  | some tag =>
    have hsame := hw
    simp only [underTag] at hw
    split at hw
    · next hlocal =>
      split at hw
      · obtain rfl := Option.some.inj hw
        rw [Rereads, ofValue, h.value?_withTag tag hlocal, hsame]
      · cases hw
    · obtain rfl : v = w := Option.some.inj hw
      exact h.rereads

theorem rereads_of_scalar? {tag : Option String} {content : Leaf}
    (h : scalar? b tag content = some v) : Rereads b v := by
  cases content with
  | plain s =>
    cases tag with
    | none => exact (bare_of_resolve? b h).rereads
    | some name =>
      simp only [scalar?] at h
      split at h
      · obtain ⟨w, hw, hv⟩ := Option.bind_eq_some_iff.1 h
        exact (bare_of_resolve? b hw).rereads_underTag hv
      · exact (bare_of_taggedScalar? b h).rereads
  | quoted s =>
    cases tag with
    | none =>
      obtain rfl := Option.some.inj h
      exact (bare_string b s).rereads
    | some name =>
      simp only [scalar?] at h
      split at h
      · exact (bare_string b s).rereads_underTag h
      · exact (bare_of_taggedScalar? b h).rereads
  | null => exact (bare_null b).rereads_underTag h
  | bool x => exact (bare_bool b x).rereads_underTag h
  | int n =>
    rw [scalar?] at h
    split at h
    · next hfits => exact (bare_int b hfits).rereads_underTag h
    · cases h
  | float x => exact (bare_float b x).rereads_underTag h

mutual

/-- A value that was read is read back. -/
theorem rereads_of_value? : ∀ {t : Tree} {v : Value}, value? b t = some v → Rereads b v
  | .leaf _ _, _, h => rereads_of_scalar? h
  | .list tag items, v, h => by
    rw [value?] at h
    cases hitems : values? b items with
    | none => simp [hitems] at h
    | some read =>
      simp only [hitems] at h
      have hbare : Bare b (.sequence read) :=
        ⟨by rw [Rereads, ofValue, value?, values?_ofItems hitems]; rfl, nofun⟩
      exact hbare.rereads_underTag h
  | .table tag entries, v, h => by
    rw [value?] at h
    cases hentries : entryValues? b entries with
    | none => simp [hentries] at h
    | some read =>
      simp only [hentries] at h
      split at h
      · next hdistinct =>
        have hbare : Bare b (.mapping read) :=
          ⟨by rw [Rereads, ofValue, value?, entryValues?_ofEntries hentries]
              simp only [hdistinct, if_true, underTag], nofun⟩
        exact hbare.rereads_underTag h
      · cases h
  | .unreadable, _, h => by simp [value?] at h

theorem values?_ofItems : ∀ {items : List Tree} {read : List Value},
    values? b items = some read → values? b (ofItems read) = some read
  | [], _, h => by
    obtain rfl := Option.some.inj h
    rfl
  | item :: rest, read, h => by
    rw [values?] at h
    cases hitem : value? b item with
    | none => simp [hitem] at h
    | some v =>
      cases hrest : values? b rest with
      | none => simp [hitem, hrest] at h
      | some more =>
        obtain rfl : v :: more = read := by simpa [hitem, hrest] using h
        rw [ofItems, values?, rereads_of_value? hitem, values?_ofItems hrest]

theorem entryValues?_ofEntries : ∀ {entries : List (Tree × Tree)} {read : List (Value × Value)},
    entryValues? b entries = some read → entryValues? b (ofEntries read) = some read
  | [], _, h => by
    obtain rfl := Option.some.inj h
    rfl
  | (key, value) :: rest, read, h => by
    rw [entryValues?] at h
    cases hkey : value? b key with
    | none => simp [hkey] at h
    | some k =>
      cases hvalue : value? b value with
      | none => simp [hkey, hvalue] at h
      | some v =>
        cases hrest : entryValues? b rest with
        | none => simp [hkey, hvalue, hrest] at h
        | some more =>
          obtain rfl : (k, v) :: more = read := by simpa [hkey, hvalue, hrest] using h
          rw [ofEntries, entryValues?, rereads_of_value? hkey, rereads_of_value? hvalue,
            entryValues?_ofEntries hrest]

end

/-- Nothing but an absent value under no tag is read as absent from what was written. -/
theorem present?_ofValue (h : Rereads b v) (hv : v ≠ .null) : present? (ofValue v) = some true := by
  cases v with
  | null => exact absurd rfl hv
  | tagged tag w =>
    rw [ofValue]
    rw [Rereads, ofValue] at h
    cases hw : ofValue w with
    | leaf other content =>
      rw [hw, withTag, value?] at h
      rw [withTag]
      have htag : tag ≠ nullTag := by
        rintro rfl
        have hlocal : ¬ isLocalTag nullTag = true := by decide
        cases content <;> simp only [scalar?, underTag, if_neg hlocal] at h
        · exact (bare_of_taggedScalar? b h).untagged _ _ rfl
        · exact (bare_of_taggedScalar? b h).untagged _ _ rfl
        all_goals simp at h
      cases content <;> simp [present?, htag]
    | list other items => rfl
    | table other entries => rfl
    | unreadable => rfl
  | _ => rfl

end Tree

/-! ### Records -/

/-- Keys without a meaning that can be written beside the known ones: they have other names, and
their values are read back. -/
structure Extra.Clean (extra : Extra) (keys : List String) : Prop where
  apart : extra.Apart keys
  rereads : ∀ e ∈ extra.entries, Tree.Rereads false e.2

theorem Members.clean_of_others? {members : Members} {keys : List String} {extra : Extra}
    (h : members.others? keys = some extra) : extra.Clean keys := by
  obtain ⟨read, hread, rfl⟩ := Option.map_eq_some_iff.1 h
  have hmem : ∀ e ∈ NameMap.entries (NameMap.ofList read), e.1 ∉ keys ∧ Tree.Rereads false e.2 := by
    intro e he
    obtain ⟨m, hm, hvalue⟩ :=
      exists_mem_of_forall₂ (forall₂_of_mapM hread) (NameMap.mem_of_mem_ofList he)
    obtain ⟨v, hv, rfl⟩ := Option.map_eq_some_iff.1 hvalue
    obtain ⟨-, hother⟩ := List.mem_filter.1 hm
    exact ⟨by simpa using hother, Tree.rereads_of_value? hv⟩
  exact ⟨fun e he ↦ (hmem e he).1, fun e he ↦ (hmem e he).2⟩

/-- A value that may be absent is read back, but for a value that is itself nothing. -/
theorem Members.optional?_written_value {known : List (String × Option Value)} {extra : Extra}
    {name : String} {value : Option Value} {b : Bool} (h : Unambiguous known extra)
    (hmem : (name, value) ∈ known) (hread : ∀ v, value = some v → Tree.Rereads b v) :
    (written (laid known extra)).optional? name (Tree.value? b) =
      some (value.filter (· ≠ .null)) := by
  rw [optional?, read?_written h hmem]
  cases value with
  | none => rfl
  | some v =>
    by_cases hv : v = .null
    · subst hv
      rfl
    · have hpresent := Tree.present?_ofValue (hread v rfl) hv
      have hvalue : Tree.value? b (Tree.ofValue v) = some v := hread v rfl
      simp [Tree.optional, hpresent, hvalue, Option.filter, hv]

theorem Extra.clean_empty (keys : List String) : (∅ : Extra).Clean keys where
  apart := Extra.apart_empty keys
  rereads _ he := absurd he List.not_mem_nil

namespace Cluster

/-- Whether what is written for a cluster is read back. -/
def Clean (c : Cluster) : Prop := c.extra.Clean keys

theorem clean_of_ofTree? {t : Tree} {c : Cluster} (h : ofTree? t = some c) : c.Clean := by
  obtain ⟨members, -, -, -, -, -, -, hextra⟩ := ofTree?_eq_some_iff.1 h
  exact Members.clean_of_others? hextra

theorem ofTree?_toValue {c : Cluster} (h : c.Clean) :
    ofTree? (Tree.ofValue c.toValue) = some c := by
  have hplain : Unambiguous c.known c.extra := ⟨(by decide : keys.Nodup), h.apart⟩
  rw [toValue_eq]
  exact ofTree?_eq_some_iff.2 ⟨_, Tree.members?_ofValue_record _ _,
    Members.read?_written_text hplain (by simp [known]) _,
    Members.optional?_written_text hplain (by simp [known]),
    Members.optional?_written_text hplain (by simp [known]),
    Members.optional?_written_bool hplain (by simp [known]),
    Members.optional?_written_text hplain (by simp [known]),
    Members.others?_written hplain h.rereads⟩

end Cluster

namespace Variable

theorem ofTree?_toValue (v : Variable) : ofTree? (Tree.ofValue v.toValue) = some v := by
  have hplain : Unambiguous v.known ∅ :=
    ⟨(by decide : ["name", "value"].Nodup), Extra.apart_empty _⟩
  rw [toValue_eq]
  exact ofTree?_eq_some_iff.2 ⟨_, Tree.members?_ofValue_record _ _,
    Members.read?_written_text hplain (by simp [known]) _,
    Members.read?_written_text hplain (by simp [known]) _⟩

end Variable

namespace Plugin

/-- Whether what is written for a credential plugin is read back. -/
def Clean (p : Plugin) : Prop := p.extra.Clean keys

theorem clean_of_ofTree? {t : Tree} {p : Plugin} (h : ofTree? t = some p) : p.Clean := by
  obtain ⟨members, -, -, -, -, -, hextra⟩ := ofTree?_eq_some_iff.1 h
  exact Members.clean_of_others? hextra

theorem ofTree?_toValue {p : Plugin} (h : p.Clean) :
    ofTree? (Tree.ofValue p.toValue) = some p := by
  have hplain : Unambiguous p.known p.extra := ⟨(by decide : keys.Nodup), h.apart⟩
  rw [toValue_eq]
  exact ofTree?_eq_some_iff.2 ⟨_, Tree.members?_ofValue_record _ _,
    Members.read?_written_text hplain (by simp [known]) _,
    Members.read?_written_text hplain (by simp [known]) _,
    Members.read?_written_list hplain
      (show ("args", listIf (p.args.map Value.string)) ∈ p.known by simp [known]) fun _ _ ↦ rfl,
    Members.read?_written_list hplain (by simp [known]) fun v _ ↦ v.ofTree?_toValue,
    Members.others?_written hplain h.rereads⟩

end Plugin

namespace User

/-- Whether what is written for a user is read back. -/
structure Clean (u : User) : Prop where
  plugin : ∀ p, u.plugin = some p → p.Clean
  extra : u.extra.Clean keys

theorem clean_of_ofTree? {t : Tree} {u : User} (h : ofTree? t = some u) : u.Clean := by
  obtain ⟨members, -, -, hplugin, -, -, hextra⟩ := ofTree?_eq_some_iff.1 h
  refine ⟨fun p hp ↦ ?_, Members.clean_of_others? hextra⟩
  rw [hp] at hplugin
  obtain ⟨block, -, hblock⟩ := Members.exists_of_optional? hplugin
  exact Plugin.clean_of_ofTree? hblock

theorem ofTree?_toValue {u : User} (h : u.Clean) : ofTree? (Tree.ofValue u.toValue) = some u := by
  have hplain : Unambiguous u.known u.extra := ⟨(by decide : keys.Nodup), h.extra.apart⟩
  rw [toValue_eq]
  exact ofTree?_eq_some_iff.2 ⟨_, Tree.members?_ofValue_record _ _,
    Members.optional?_written_text hplain (by simp [known]),
    Members.optional?_written hplain (by simp [known]) fun p hp ↦
      ⟨rfl, Plugin.ofTree?_toValue (h.plugin p hp)⟩,
    Members.optional?_written_text hplain (by simp [known]),
    Members.optional?_written_text hplain (by simp [known]),
    Members.others?_written hplain h.extra.rereads⟩

end User

namespace Context

/-- Whether what is written for a context is read back, but for an absent value among the
extensions. -/
structure Clean (c : Context) : Prop where
  extensions : ∀ v, c.extensions = some v → Tree.Rereads true v
  extra : c.extra.Clean keys

/-- The context without extensions that are nothing. -/
def settled (c : Context) : Context :=
  { c with extensions := c.extensions.filter (· ≠ .null) }

theorem clean_of_ofTree? {t : Tree} {c : Context} (h : ofTree? t = some c) : c.Clean := by
  obtain ⟨members, -, -, -, -, hextensions, hextra⟩ := ofTree?_eq_some_iff.1 h
  refine ⟨fun v hv ↦ ?_, Members.clean_of_others? hextra⟩
  rw [hv] at hextensions
  obtain ⟨t, -, hread⟩ := Members.exists_of_optional? hextensions
  exact Tree.rereads_of_value? hread

theorem ofTree?_toValue {c : Context} (h : c.Clean) :
    ofTree? (Tree.ofValue c.toValue) = some c.settled := by
  have hplain : Unambiguous c.known c.extra := ⟨(by decide : keys.Nodup), h.extra.apart⟩
  rw [toValue_eq]
  exact ofTree?_eq_some_iff.2 ⟨_, Tree.members?_ofValue_record _ _,
    Members.read?_written_text hplain (by simp [known, settled]) _,
    Members.read?_written_text hplain (by simp [known, settled]) _,
    Members.optional?_written_text hplain (by simp [known, settled]),
    Members.optional?_written_value hplain (by simp [known]) h.extensions,
    Members.others?_written hplain h.extra.rereads⟩

end Context

/-! ### Maps of records -/

namespace NameMap

variable {α β : Type} {p : α → Prop} {m m' : NameMap α} {a b name : String} {value : α}

/-- Every value of a map has a property. -/
def All (p : α → Prop) (m : NameMap α) : Prop := ∀ name value, m.get? name = some value → p value

theorem all_empty : (empty : NameMap α).All p := nofun

theorem All.insert (h : m.All p) (name : String) (hvalue : p value) :
    (m.insert name value).All p := by
  intro other found hfound
  rw [get?_insert] at hfound
  split at hfound
  · exact Option.some.inj hfound ▸ hvalue
  · exact h other found hfound

theorem All.erase (h : m.All p) (name : String) : (m.erase name).All p := by
  intro other found hfound
  rw [get?_erase] at hfound
  split at hfound
  · cases hfound
  · exact h other found hfound

theorem All.map {q : β → Prop} {f : α → β} (h : m.All p) (hf : ∀ a, p a → q (f a)) :
    (m.map f).All q := by
  intro name value hvalue
  rw [get?_map] at hvalue
  obtain ⟨old, hold, rfl⟩ := Option.map_eq_some_iff.1 hvalue
  exact hf old (h name old hold)

theorem All.exchange? (h : m.All p) (hx : m.exchange? a b = some m') : m'.All p := by
  unfold NameMap.exchange? at hx
  cases hb : m.get? b with
  | none => simp [hb] at hx
  | some ofB =>
    cases ha : m.get? a with
    | none =>
      obtain rfl : (m.erase b).insert a ofB = m' := by simpa [hb, ha] using hx
      exact (h.erase b).insert a (h b ofB hb)
    | some ofA =>
      obtain rfl : (m.insert b ofA).insert a ofB = m' := by simpa [hb, ha] using hx
      exact (h.insert b (h a ofA ha)).insert a (h b ofB hb)

theorem All.moveAside? {free : String} (h : m.All p) (hx : m.moveAside? name = some (m', free)) :
    m'.All p := by
  unfold NameMap.moveAside? at hx
  cases hname : m.get? name with
  | none => simp [hname] at hx
  | some value =>
    simp only [hname, Option.some.injEq, Prod.mk.injEq] at hx
    rw [← hx.1]
    exact (h.erase name).insert _ (h name value hname)

end NameMap

namespace Kubeconfig

/-- Whether what is written for a kubeconfig is read back, but for absent values under keys that
hold values of any shape. -/
structure Clean (c : Kubeconfig) : Prop where
  preferences : ∀ v, c.preferences = some v → Tree.Rereads true v
  clusters : c.clusters.All Cluster.Clean
  users : c.users.All User.Clean
  contexts : c.contexts.All Context.Clean
  extensions : ∀ v, c.extensions = some v → Tree.Rereads true v
  extra : c.extra.Clean keys

/-- The kubeconfig without preferences and extensions that are nothing. -/
def settled (c : Kubeconfig) : Kubeconfig :=
  { c with
    preferences := c.preferences.filter (· ≠ .null)
    contexts := c.contexts.map Context.settled
    extensions := c.extensions.filter (· ≠ .null) }

theorem all_of_entriesOf? {α : Type} {p : α → Prop} {members : Members} {list body : String}
    {absent : α} {read : Tree → Option α} {m : NameMap α}
    (h : entriesOf? members list body absent read = some m) (habsent : p absent)
    (hread : ∀ t a, read t = some a → p a) : m.All p := by
  obtain ⟨entries, hentries, rfl⟩ := entriesOf?_eq_some_iff.1 h
  intro name a hget
  have hmem := NameMap.mem_of_mem_ofList (NameMap.get?_eq_some_iff.1 hget)
  cases entries with
  | none => cases hmem
  | some entries =>
    obtain ⟨t, -, ht⟩ := Members.exists_of_optional? hentries
    obtain ⟨items, -, hitems⟩ := Option.bind_eq_some_iff.1 ht
    obtain ⟨item, -, hitem⟩ := exists_mem_of_forall₂ (forall₂_of_mapM hitems) hmem
    obtain ⟨inner, -, -, hbody⟩ := entryOfTree?_eq_some_iff.1 hitem
    rcases Members.exists_of_read? hbody with habsent' | ⟨body, -, hbody⟩
    · obtain rfl : absent = a := Option.some.inj habsent'
      exact habsent
    · exact hread body a hbody

theorem clean_of_ofTree? {t : Tree} {c : Kubeconfig} (h : ofTree? t = some c) : c.Clean := by
  obtain ⟨members, -, -, -, hpreferences, hclusters, husers, hcontexts, -, hextensions, hextra⟩ :=
    ofTree?_eq_some_iff.1 h
  have hvalue : ∀ name v, members.optional? name (Tree.value? true) = some (some v) →
      Tree.Rereads true v := by
    intro name v hv
    obtain ⟨t, -, hread⟩ := Members.exists_of_optional? hv
    exact Tree.rereads_of_value? hread
  exact {
    preferences := fun v hv ↦ hvalue _ v (hv ▸ hpreferences)
    clusters := all_of_entriesOf? hclusters (Extra.clean_empty _) fun _ _ ↦
      Cluster.clean_of_ofTree?
    users := all_of_entriesOf? husers ⟨nofun, Extra.clean_empty _⟩ fun _ _ ↦ User.clean_of_ofTree?
    contexts := all_of_entriesOf? hcontexts ⟨nofun, Extra.clean_empty _⟩ fun _ _ ↦
      Context.clean_of_ofTree?
    extensions := fun v hv ↦ hvalue _ v (hv ▸ hextensions)
    extra := Members.clean_of_others? hextra }

theorem ofTree?_toValue {c : Kubeconfig} (h : c.Clean) :
    ofTree? (Tree.ofValue c.toValue) = some c.settled := by
  have hplain : Unambiguous c.known c.extra := ⟨(by decide : keys.Nodup), h.extra.apart⟩
  rw [toValue_eq]
  exact ofTree?_eq_some_iff.2 ⟨_, Tree.members?_ofValue_record _ _,
    Members.optional?_written_text hplain (by simp [known, settled]),
    Members.optional?_written_text hplain (by simp [known, settled]),
    Members.optional?_written_value hplain (by simp [known]) h.preferences,
    entriesOf?_written_self hplain (by simp [known, settled]) (by decide) fun e he ↦
      Cluster.ofTree?_toValue (h.clusters e.1 e.2 (NameMap.get?_eq_some_iff.2 he)),
    entriesOf?_written_self hplain (by simp [known, settled]) (by decide) fun e he ↦
      User.ofTree?_toValue (h.users e.1 e.2 (NameMap.get?_eq_some_iff.2 he)),
    entriesOf?_written hplain (by simp [known]) (by decide) fun e he ↦
      Context.ofTree?_toValue (h.contexts e.1 e.2 (NameMap.get?_eq_some_iff.2 he)),
    Members.read?_written_text hplain (by simp [known, settled]) _,
    Members.optional?_written_value hplain (by simp [known]) h.extensions,
    Members.others?_written hplain h.extra.rereads⟩

end Kubeconfig

/-! ### Switching -/

theorem Context.Clean.refer {c : Context} (h : c.Clean) (r : Reference) (f : String → String) :
    (c.refer r f).Clean := by
  cases r <;> exact ⟨h.extensions, h.extra⟩

namespace Switch

variable {config config' dest source : Kubeconfig} {a b name preferred : String} {outcome : Outcome}

theorem clean_referAll (h : config.Clean) (r : Reference) (f : String → String) :
    (referAll r f config).Clean :=
  { h with contexts := h.contexts.map fun _ hc ↦ hc.refer r f }

theorem clean_of_exchangeClusters (h : config.Clean)
    (hx : exchangeClusters a b config = .ok config') : config'.Clean := by
  unfold exchangeClusters at hx
  cases hclusters : config.clusters.exchange? a b with
  | none => simp [hclusters] at hx
  | some clusters =>
    have hmoved : Kubeconfig.Clean { config with clusters } :=
      { h with clusters := h.clusters.exchange? hclusters }
    simp only [hclusters, Except.ok.injEq] at hx
    exact hx ▸ clean_referAll hmoved _ _

theorem clean_of_exchangeUsers (h : config.Clean) (hx : exchangeUsers a b config = .ok config') :
    config'.Clean := by
  unfold exchangeUsers at hx
  cases husers : config.users.exchange? a b with
  | none => simp [husers] at hx
  | some users =>
    have hmoved : Kubeconfig.Clean { config with users } :=
      { h with users := h.users.exchange? husers }
    simp only [husers, Except.ok.injEq] at hx
    exact hx ▸ clean_referAll hmoved _ _

theorem clean_of_exchangeTargets (h : config.Clean)
    (hx : exchangeTargets a b config = .ok config') : config'.Clean := by
  cases hcontexts : config.contexts.exchange? a b with
  | none => simp [exchangeTargets, hcontexts] at hx
  | some contexts =>
    have hmoved : Kubeconfig.Clean { config with contexts, current := a } :=
      { h with contexts := h.contexts.exchange? hcontexts }
    cases hcontext : contexts.get? a with
    | none => simp [exchangeTargets, hcontexts, hcontext] at hx
    | some context =>
      rw [exchangeTargets_eq hcontexts hcontext] at hx
      obtain ⟨middle, hmiddle, hlast⟩ := bind_eq_ok hx
      have hclean : middle.Clean := by
        split at hmiddle
        · exact clean_of_exchangeClusters hmoved hmiddle
        · exact Except.ok.inj hmiddle ▸ hmoved
      split at hlast
      · exact clean_of_exchangeUsers hclean hlast
      · exact Except.ok.inj hlast ▸ hclean

theorem clean_of_activate (h : config.Clean) (hx : activate config name preferred = .ok outcome) :
    outcome.config.Clean := by
  unfold activate at hx
  split at hx
  · cases hx
  · split at hx
    · cases hx
    · dsimp only at hx
      split at hx
      · cases hx
        exact { h with }
      · split at hx
        · cases hx
          exact h
        · cases hexchanged : exchangeTargets preferred (previousName preferred) config with
          | error failure => simp [hexchanged, Except.map] at hx
          | ok exchanged =>
            simp only [hexchanged, Except.map, Except.ok.injEq] at hx
            exact hx ▸ clean_of_exchangeTargets h hexchanged

theorem clean_clearCluster (h : config.Clean) (name : String) :
    (clearCluster name config).Clean := by
  unfold clearCluster
  split
  · exact h
  · next clusters free hmoved =>
    have hclean : Kubeconfig.Clean { config with clusters } :=
      { h with clusters := h.clusters.moveAside? hmoved }
    exact clean_referAll hclean _ _

theorem clean_clearUser (h : config.Clean) (name : String) : (clearUser name config).Clean := by
  unfold clearUser
  split
  · exact h
  · next users free hmoved =>
    have hclean : Kubeconfig.Clean { config with users } :=
      { h with users := h.users.moveAside? hmoved }
    exact clean_referAll hclean _ _

theorem clean_clearContext (h : config.Clean) (name : String) :
    (clearContext name config).Clean := by
  unfold clearContext
  split
  · exact h
  · next contexts free hmoved => exact { h with contexts := h.contexts.moveAside? hmoved }

theorem clean_addTarget {target : Target} (h : config.Clean) (hcontext : target.context.Clean)
    (hcluster : target.cluster.Clean) (huser : ∀ user, target.user = some user → user.Clean)
    (name : String) : (addTarget name target config).Clean where
  preferences := h.preferences
  clusters := h.clusters.insert name hcluster
  users := by
    rw [addTarget]
    cases hsome : target.user with
    | none => exact h.users
    | some user => exact h.users.insert name (huser user hsome)
  contexts := h.contexts.insert name ⟨hcontext.extensions, hcontext.extra⟩
  extensions := h.extensions
  extra := h.extra

theorem clean_of_resolve {target : Target} (h : config.Clean)
    (hresolve : config.resolve name = .ok target) :
    target.context.Clean ∧ target.cluster.Clean ∧
      ∀ user, target.user = some user → user.Clean := by
  obtain ⟨context, hcontext, hcluster, huser, hbody⟩ :=
    Kubeconfig.meaning?_eq_some_iff.1 (Kubeconfig.meaning?_of_resolve hresolve)
  have hfound := h.contexts name context hcontext
  have hextensions : context.extensions = target.context.extensions :=
    (congrArg Context.extensions hbody :)
  have hextra : context.extra = target.context.extra := (congrArg Context.extra hbody :)
  refine ⟨⟨hextensions ▸ hfound.extensions, hextra ▸ hfound.extra⟩,
    h.clusters _ _ hcluster, fun user hsome ↦ ?_⟩
  have hmeant : target.meaning.user = some user := hsome
  rw [Kubeconfig.toOption_userOf, hmeant] at huser
  split at huser
  · cases huser
  · obtain ⟨found, hget, hsame⟩ := Option.map_eq_some_iff.1 huser
    exact Option.some.inj hsame ▸ h.users _ _ hget

theorem clean_of_merge (hdest : dest.Clean) (hsource : source.Clean)
    (hx : merge dest source name preferred = .ok outcome) : outcome.config.Clean := by
  obtain ⟨target, htarget, hactivate⟩ := bind_eq_ok hx
  obtain ⟨hcontext, hcluster, huser⟩ := clean_of_resolve hsource htarget
  refine clean_of_activate (clean_addTarget ?_ hcontext hcluster huser _) hactivate
  exact clean_clearContext (clean_clearUser (clean_clearCluster hdest _) _) _

end Switch

/-! ### Kubeconfigs that come about -/

/-- A user as there may be one at a place: it was read, or there is only a token. -/
def User.IsGiven (u : User) : Prop := (∃ t, ofTree? t = some u) ∨ ∃ token, u = { token }

theorem User.IsGiven.clean {u : User} (h : u.IsGiven) : u.Clean := by
  rcases h with ⟨t, ht⟩ | ⟨token, rfl⟩
  · exact clean_of_ofTree? ht
  · exact ⟨nofun, Extra.clean_empty _⟩

namespace Kubeconfig

/-- The kubeconfigs that come about: those that are read, those of places, and what becomes of such
kubeconfigs when a target is taken in or a context is made current. -/
inductive Obtained : Kubeconfig → Prop
  | read {t : Tree} {config : Kubeconfig} (h : ofTree? t = some config) : Obtained config
  | place {node : Node} {space : Space} {name : String} {config : Kubeconfig}
      (hspace : node.space? = some space) (huser : space.user.IsGiven)
      (h : node.kubeconfig? name = some config) : Obtained config
  | merge {dest source : Kubeconfig} {name preferred : String} {outcome : Switch.Outcome}
      (hdest : Obtained dest) (hsource : Obtained source)
      (h : Switch.merge dest source name preferred = .ok outcome) : Obtained outcome.config
  | activate {config : Kubeconfig} {name preferred : String} {outcome : Switch.Outcome}
      (hconfig : Obtained config)
      (h : Switch.activate config name preferred = .ok outcome) : Obtained outcome.config

theorem clean_single {name server : String} {space : Space} {namespaceName : Option String}
    (h : space.user.Clean) :
    (single name (space.cluster server) space.user namespaceName).Clean where
  preferences := nofun
  clusters := NameMap.all_empty.insert name (Extra.clean_empty _)
  users := NameMap.all_empty.insert name h
  contexts := NameMap.all_empty.insert name ⟨nofun, Extra.clean_empty _⟩
  extensions := nofun
  extra := Extra.clean_empty _

theorem clean_of_node {node : Node} {space : Space} {name : String} {config : Kubeconfig}
    (hspace : node.space? = some space) (huser : space.user.Clean)
    (h : node.kubeconfig? name = some config) : config.Clean := by
  cases node with
  | root => cases h
  | organization o => cases h
  | space s =>
    obtain rfl := Option.some.inj hspace
    exact Option.some.inj h ▸ clean_single huser
  | group g =>
    obtain rfl := Option.some.inj hspace
    exact Option.some.inj h ▸ clean_single huser
  | controlPlane c =>
    obtain rfl := Option.some.inj hspace
    exact Option.some.inj h ▸ clean_single huser

theorem Obtained.clean {config : Kubeconfig} (h : config.Obtained) : config.Clean := by
  induction h with
  | read h => exact clean_of_ofTree? h
  | place hspace huser h => exact clean_of_node hspace huser.clean h
  | merge _ _ h hdest hsource => exact Switch.clean_of_merge hdest hsource h
  | activate _ h hconfig => exact Switch.clean_of_activate hconfig h

/-- No preferences and no extensions are an absent value that is there. -/
structure Valued (c : Kubeconfig) : Prop where
  preferences : c.preferences ≠ some .null
  contexts : c.contexts.All fun context ↦ context.extensions ≠ some .null
  extensions : c.extensions ≠ some .null

theorem filter_eq_self_iff {o : Option Value} : o.filter (· ≠ .null) = o ↔ o ≠ some .null := by
  cases o with
  | none => simp
  | some v => by_cases hv : v = .null <;> simp [Option.filter, hv]

theorem settled_eq_self_iff {c : Kubeconfig} : c.settled = c ↔ c.Valued := by
  constructor
  · intro h
    refine ⟨filter_eq_self_iff.1 (congrArg preferences h :), fun name context hcontext ↦ ?_,
      filter_eq_self_iff.1 (congrArg Kubeconfig.extensions h :)⟩
    have hcontexts : (c.contexts.map Context.settled).get? name = c.contexts.get? name :=
      congrArg (fun c : Kubeconfig ↦ c.contexts.get? name) h
    rw [NameMap.get?_map, hcontext] at hcontexts
    exact filter_eq_self_iff.1 (congrArg Context.extensions (Option.some.inj hcontexts) :)
  · intro h
    have hcontexts : c.contexts.map Context.settled = c.contexts := by
      refine NameMap.ext_get? fun name ↦ ?_
      rw [NameMap.get?_map]
      cases hcontext : c.contexts.get? name with
      | none => rfl
      | some context =>
        rw [Option.map_some, Context.settled,
          filter_eq_self_iff.2 (h.contexts name context hcontext)]
    rw [settled, hcontexts, filter_eq_self_iff.2 h.preferences, filter_eq_self_iff.2 h.extensions]

/-- What is written for a kubeconfig that came about is read as that kubeconfig, without the
preferences and extensions that are nothing. -/
theorem reread_obtained {config : Kubeconfig} (h : config.Obtained) :
    ofTree? (Tree.ofValue config.toValue) = some config.settled ∧
      (config.settled = config ↔ config.Valued) :=
  ⟨ofTree?_toValue h.clean, settled_eq_self_iff⟩

/-- A text with an unknown key, an absent value under a tag, and a user without anything. -/
def keptText : String :=
  "clusters:\n- name: a\n  cluster:\n    insecure-skip-tls-verify: false\n    proxy-url: null\n" ++
    "users:\n- name: a\n  user: \x7b\x7d\n" ++
    "contexts:\n- name: a\n  context:\n    cluster: a\n    user: a\n    extensions: !mine null\n" ++
    "current-context: a\n"

/-- A group in a space for which there is only a token. -/
def tokenGroup : Group where
  space :=
    { organization := none, name := "s", ingress := "https://s", authorityData := none
      insecure := false, user := { token := some "t" } }
  name := "team"

/-- What is read of that text and then takes in that group is written and read again. -/
theorem reread_obtained_merged :
    ∃ config source outcome, parse? keptText = some config ∧
      (Node.group tokenGroup).kubeconfig? "up" = some source ∧
      Switch.merge config source "up" "up" = .ok outcome ∧ outcome.config.Obtained ∧
      ofTree? (Tree.ofValue outcome.config.toValue) = some outcome.config.settled ∧
      (outcome.config.settled = outcome.config ↔ outcome.config.Valued) := by
  have hmerged : (parse? keptText).any (fun config ↦
      ((Node.group tokenGroup).kubeconfig? "up").any fun source ↦
        (Switch.merge config source "up" "up").isOk) = true := by decide +kernel
  obtain ⟨config, hconfig, hmerged⟩ := (Option.any_eq_true ..).1 hmerged
  obtain ⟨source, hsource, hmerged⟩ := (Option.any_eq_true ..).1 hmerged
  obtain ⟨outcome, houtcome⟩ : ∃ outcome, Switch.merge config source "up" "up" = .ok outcome := by
    cases hx : Switch.merge config source "up" "up" with
    | error failure => simp [hx, Except.isOk, Except.toBool] at hmerged
    | ok outcome => exact ⟨outcome, rfl⟩
  obtain ⟨t, -, ht⟩ := Option.bind_eq_some_iff.1 hconfig
  have hspace : (Node.group tokenGroup).space? = some tokenGroup.space := rfl
  have hplace : source.Obtained := .place hspace (Or.inr ⟨_, rfl⟩) hsource
  have hobtained := Obtained.merge (.read ht) hplace houtcome
  exact ⟨config, source, outcome, hconfig, hsource, houtcome, hobtained, reread_obtained hobtained⟩

/-- Preferences that are an absent value in quotes, under its own tag. -/
def quotedNull : Kubeconfig where
  apiVersion := none
  kind := none
  preferences := some .null

/-- Such preferences are there when they are read, and not when they are read again. -/
theorem quotedNull_lost :
    parse? "preferences: !!null 'null'\n" = some quotedNull ∧
      ∃ back, ofTree? (Tree.ofValue quotedNull.toValue) = some back ∧
        quotedNull.same back = false :=
  ⟨by decide +kernel, { quotedNull with preferences := none }, by decide, by decide⟩

end Kubeconfig

end Wayfinder
