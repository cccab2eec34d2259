import Wayfinder.Proofs.Continuing
import Wayfinder.Proofs.Encoding

/-!
Listings are whole, in order, and lead on. What is listed at a place is what the source of answers
says when it is asked for the names there (`Api.Answers`). Main statement: a failure to answer is
the failure of the listing; otherwise the rows are the row that leads up, if anything is above, one
row that says there is nothing, if nothing is listed where something could be, and the rows of the
children, each once, in the byte order of their names and those of one name in the order of the
answer. Each row of a child leads to a place whose breadcrumbs go on with its name and which has the
listed place above it (`Node.items_shown`).

Sorting is stable: the rows of one name are in order before sorting, and a list that is in order
keeps its place among the others (`filter_sortRows`).
-/

set_option autoImplicit false
set_option relaxedAutoImplicit false

namespace Wayfinder

/-! ### Rows in order -/

/-- Whether a row may stand before another one. -/
def Item.mayPrecede (a b : Item) : Bool := !decide (b.text < a.text)

namespace Item

theorem mayPrecede_iff {a b : Item} : a.mayPrecede b = true ↔ ¬b.text < a.text := by
  rw [mayPrecede, Bool.not_eq_true', decide_eq_false_iff_not]

theorem mayPrecede_trans (a b c : Item) (hab : a.mayPrecede b = true)
    (hbc : b.mayPrecede c = true) : a.mayPrecede c = true := by
  rw [mayPrecede_iff] at hab hbc ⊢
  intro hca
  rcases Std.lt_trichotomy a.text b.text with hlt | heq | hgt
  · exact hbc (String.lt_trans hca hlt)
  · exact hbc (heq ▸ hca)
  · exact hab hgt

theorem mayPrecede_total (a b : Item) : (a.mayPrecede b || b.mayPrecede a) = true := by
  rw [Bool.or_eq_true, mayPrecede_iff, mayPrecede_iff]
  by_cases hlt : b.text < a.text
  · exact Or.inr (String.lt_asymm hlt)
  · exact Or.inl hlt

theorem mayPrecede_of_text_eq {a b : Item} (h : a.text = b.text) : a.mayPrecede b = true := by
  rw [mayPrecede_iff, h]
  exact String.lt_irrefl _

end Item

theorem sortRows_eq (rows : List Item) : sortRows rows = rows.mergeSort Item.mayPrecede := rfl

/-- Sorted rows are in the order of the octets of their texts. -/
theorem pairwise_sortRows (rows : List Item) : (sortRows rows).Pairwise
    fun a b ↦ (Text.encode a.text).toList ≤ (Text.encode b.text).toList := by
  rw [sortRows_eq]
  refine (List.pairwise_mergeSort Item.mayPrecede_trans Item.mayPrecede_total rows).imp fun hle ↦ ?_
  exact Text.encode_le_of_not_lt (Item.mayPrecede_iff.1 hle)

/-- Sorting keeps the rows of one text in their order. -/
theorem filter_sortRows (rows : List Item) (text : String) :
    (sortRows rows).filter (·.text == text) = rows.filter (·.text == text) := by
  have hordered : (rows.filter (·.text == text)).Pairwise fun a b ↦ a.mayPrecede b = true := by
    refine List.pairwise_of_forall_mem_list fun a ha b hb ↦ Item.mayPrecede_of_text_eq ?_
    rw [eq_of_beq (List.mem_filter.1 ha).2, eq_of_beq (List.mem_filter.1 hb).2]
  have hsub : (rows.filter (·.text == text)).Sublist (sortRows rows) :=
    List.sublist_mergeSort Item.mayPrecede_trans Item.mayPrecede_total hordered
      List.filter_sublist
  have hfiltered := hsub.filter (·.text == text)
  rw [List.filter_filter, List.filter_congr fun _ _ ↦ Bool.and_self _] at hfiltered
  exact (hfiltered.eq_of_length ((perm_sortRows rows).symm.filter _).length_eq).symm

/-! ### Answers -/

variable {σ : Type}

/-- What a source of answers says about a place: the names that are listed there with the places
they stand for, or why there is no answer. Nothing is asked about a control plane. -/
inductive Api.Answers (api : Api (StateM σ)) (s : σ) :
    Node → Except Failure (List (String × Node)) → σ → Prop
  | organizations {answer : Except Failure (List Organization)} {next : σ}
      (h : reply api.organizations s = (answer, next)) :
      Answers api s .root (answer.map fun l ↦ l.map fun o ↦ (o.name, .organization o)) next
  | spaces {answer : Except Failure (List Space)} {next : σ} (o : Organization)
      (h : reply (api.spaces o) s = (answer, next)) :
      Answers api s (.organization o)
        (answer.map fun l ↦ l.map fun space ↦ (space.name, .space space)) next
  | groups {answer : Except Failure (List String)} {next : σ} (space : Space)
      (h : reply (api.groups space) s = (answer, next)) :
      Answers api s (.space space)
        (answer.map fun l ↦ l.map fun name ↦ (name, .group { space, name })) next
  | controlPlanes {answer : Except Failure (List String)} {next : σ} (group : Group)
      (h : reply (api.controlPlanes group) s = (answer, next)) :
      Answers api s (.group group)
        (answer.map fun l ↦ l.map fun name ↦ (name, .controlPlane { group, name })) next
  | nothing (controlPlane : ControlPlane) : Answers api s (.controlPlane controlPlane) (.ok []) s

/-- The rows of what is listed: each has a name for its text, and leads to the place of that
name. -/
def rowsOf (listed : List (String × Node)) : List Item :=
  listed.map fun l ↦ { text := l.1, target := some l.2, isPlaceholder := false, isUp := false }

theorem reply_map {α β : Type} {x : ExceptT Failure (StateM σ) α} {s next : σ}
    {answer : Except Failure α} (f : α → β) (h : reply x s = (answer, next)) :
    reply (do let a ← x; pure (f a)) s = (answer.map f, next) := by
  rw [reply_bind, h]
  cases answer with
  | error failure => rfl
  | ok a => rfl

theorem map_map_answer {α β γ : Type} (f : α → β) (g : β → γ) (answer : Except Failure α) :
    (answer.map f).map g = answer.map fun a ↦ g (f a) := by
  cases answer with
  | error failure => rfl
  | ok a => rfl

namespace Api.Answers

variable {api : Api (StateM σ)} {s next : σ} {node : Node}
  {answer : Except Failure (List (String × Node))}

/-- There is an answer about every place. -/
theorem exists_answer (api : Api (StateM σ)) (s : σ) (node : Node) :
    ∃ answer next, api.Answers s node answer next := by
  cases node with
  | root => exact ⟨_, _, .organizations rfl⟩
  | organization o => exact ⟨_, _, .spaces o rfl⟩
  | space space => exact ⟨_, _, .groups space rfl⟩
  | group group => exact ⟨_, _, .controlPlanes group rfl⟩
  | controlPlane controlPlane => exact ⟨_, _, .nothing controlPlane⟩

theorem reply_children (h : api.Answers s node answer next) :
    reply (node.children api) s = (answer.map rowsOf, next) := by
  have hrows {α : Type} {x : ExceptT Failure (StateM σ) (List α)} {reply' : Except Failure (List α)}
      {after : σ} (entry : α → String × Node) (hx : reply x s = (reply', after)) :
      reply (do let l ← x; pure (l.map fun a ↦ Item.child (entry a).1 (entry a).2)) s =
        ((reply'.map fun l ↦ l.map entry).map rowsOf, after) := by
    rw [reply_map _ hx, map_map_answer]
    simp only [rowsOf, List.map_map]
    rfl
  cases h with
  | organizations h => exact hrows (fun o ↦ (o.name, .organization o)) h
  | spaces o h => exact hrows (fun space ↦ (space.name, .space space)) h
  | groups space h => exact hrows (fun name ↦ (name, .group { space, name })) h
  | controlPlanes group h => exact hrows (fun name ↦ (name, .controlPlane { group, name })) h
  | nothing controlPlane => rfl

/-- What is listed are children of the place. -/
theorem isChild {listed : List (String × Node)} (h : api.Answers s node (.ok listed) next)
    {entry : String × Node} (hentry : entry ∈ listed) : node.IsChild entry.1 entry.2 := by
  have hrow : Item.child entry.1 entry.2 ∈ rowsOf listed := List.mem_map_of_mem hentry
  obtain ⟨name, below, heq, hchild⟩ := Node.exists_child_of_children h.reply_children hrow
  cases heq
  exact hchild

/-- A failure to answer is the failure of the listing, and an answer is laid out in rows. -/
theorem reply_items (h : api.Answers s node answer next) :
    reply (node.items api) s =
      (answer.map fun listed ↦ node.listing (rowsOf listed), next) := by
  have hitems := reply_map node.listing h.reply_children
  rwa [map_map_answer] at hitems

end Api.Answers

/-! ### Rows of a place -/

namespace Node

variable {node child : Node} {name : String}

/-- What stands before the name of a child in its breadcrumbs. -/
def stem : Node → String
  | .root => "/"
  | node => node.breadcrumbs ++ "/"

/-- The breadcrumbs of a child go on with its name. -/
theorem IsChild.breadcrumbs_eq (h : node.IsChild name child)
    (hcarries : ∀ organization space, node = .organization organization →
      child = .space space → space.organization = some organization) :
    child.breadcrumbs = node.stem ++ name := by
  cases h with
  | organization o => rfl
  | space o space =>
    rw [breadcrumbs, Space.breadcrumbs, hcarries o space rfl rfl]
    rfl
  | group space name => rfl
  | controlPlane group name => rfl

theorem emptyText?_eq_none_iff : node.emptyText? = none ↔ ∃ c, node = .controlPlane c := by
  cases node <;> simp [emptyText?]

/-- The rows of a place, taken apart. Two dots lead up, exactly if there is a place above; a row
that leads nowhere says there is nothing, exactly if nothing is listed where something could be; and
the rows of the children are those of what is listed, in order. -/
structure Shows (node : Node) (listed : List (String × Node)) (up nothing children : List Item) :
    Prop where
  up_of_none : node.parent? = none → up = []
  up_of_some : ∀ parent, node.parent? = some parent →
    up = [{ text := "..", target := some parent, isPlaceholder := false, isUp := true }]
  nothing_cases : nothing = [] ∨
    ∃ text, nothing = [{ text, target := none, isPlaceholder := true, isUp := false }]
  nothing_iff : nothing ≠ [] ↔ listed = [] ∧ ∀ c, node ≠ .controlPlane c
  perm : children.Perm (rowsOf listed)
  stable : ∀ text, children.filter (·.text == text) = (rowsOf listed).filter (·.text == text)
  ordered : children.Pairwise fun a b ↦ (Text.encode a.text).toList ≤ (Text.encode b.text).toList
  /-- Where a listed space knows the organization it is listed for, the rows of the children lead
  below the place. -/
  leads : (∀ organization space, node = .organization organization →
      (∃ name, (name, Node.space space) ∈ listed) → space.organization = some organization) →
    ∀ row ∈ children, ∃ below, row.target = some below ∧
      below.breadcrumbs = node.stem ++ row.text ∧ below.parent? = some node

/-- The rows of a place show what is listed there. -/
theorem exists_shows {listed : List (String × Node)}
    (hlisted : ∀ entry ∈ listed, node.IsChild entry.1 entry.2) :
    ∃ up nothing children, node.listing (rowsOf listed) = up ++ nothing ++ children ∧
      node.Shows listed up nothing children := by
  have hempty : (rowsOf listed).isEmpty = listed.isEmpty := List.isEmpty_map
  refine ⟨(node.parent?.map Item.up).toList,
    if listed.isEmpty then (node.emptyText?.map Item.placeholder).toList else [],
    sortRows (rowsOf listed), ?_, fun hnone ↦ ?_, fun parent hparent ↦ ?_, ?_, ?_,
    perm_sortRows _, filter_sortRows _, pairwise_sortRows _, ?_⟩
  · rw [listing, hempty]
    cases node.parent? <;> cases node.emptyText? <;> cases listed.isEmpty <;> rfl
  · rw [hnone]
    rfl
  · rw [hparent]
    rfl
  · cases listed.isEmpty with
    | false => exact Or.inl rfl
    | true =>
      cases node.emptyText? with
      | none => exact Or.inl rfl
      | some text => exact Or.inr ⟨text, rfl⟩
  · have hplane : (∀ c, node ≠ .controlPlane c) ↔ node.emptyText? ≠ none := by
      rw [Ne, emptyText?_eq_none_iff, not_exists]
    rw [hplane, ← List.isEmpty_iff]
    cases listed.isEmpty <;> cases node.emptyText? <;> simp
  · intro hcarries row hrow
    obtain ⟨entry, hentry, rfl⟩ := List.mem_map.1 ((perm_sortRows _).mem_iff.1 hrow)
    have hcarried : ∀ organization space, node = .organization organization →
        entry.2 = .space space → space.organization = some organization :=
      fun organization space hnode hspace ↦ hcarries organization space hnode
        ⟨entry.1, hspace ▸ hentry⟩
    exact ⟨entry.2, rfl, (hlisted entry hentry).breadcrumbs_eq hcarried,
      (hlisted entry hentry).parent? hcarried⟩

/-- About every place there is an answer. A failure is the failure of the listing, and otherwise the
rows show what is listed. -/
theorem items_shown (api : Api (StateM σ)) (node : Node) (s : σ) :
    ∃ answer next, api.Answers s node answer next ∧
      (∀ failure, answer = .error failure →
        reply (node.items api) s = (.error failure, next)) ∧
      ∀ listed, answer = .ok listed → ∃ up nothing children,
        reply (node.items api) s = (.ok (up ++ nothing ++ children), next) ∧
          node.Shows listed up nothing children := by
  obtain ⟨answer, next, hanswer⟩ := Api.Answers.exists_answer api s node
  refine ⟨answer, next, hanswer, ?_, ?_⟩
  · rintro failure rfl
    exact hanswer.reply_items
  · rintro listed rfl
    obtain ⟨up, nothing, children, hrows, hshows⟩ := exists_shows fun _ ↦ hanswer.isChild
    refine ⟨up, nothing, children, ?_, hshows⟩
    rw [← hrows]
    exact hanswer.reply_items

/-- A source of answers that lists two spaces of one name, out of order, and no groups. -/
def twinned : Api (StateM Unit) where
  skipsVerification := false
  organizations := pure []
  spaces organization := pure
    [{ spaceNamed (some organization) "eu" with ingress := "first.example" },
      spaceNamed (some organization) "ap",
      { spaceNamed (some organization) "eu" with ingress := "second.example" }]
  groups _ := throw (.api 503 "")
  controlPlanes _ := pure []
  ingress _ _ := throw (.api 404 "")

/-- Two spaces of one name stand in the order of the answer, below the row that leads up; and what
has no answer has no rows. -/
theorem items_shown_twinned :
    let acme : Organization := { name := "acme" }
    let ap := spaceNamed (some acme) "ap"
    let eu := spaceNamed (some acme) "eu"
    (∃ children, reply ((Node.organization acme).items twinned) () =
        (.ok (Item.up .root :: children), ()) ∧
      children.filter (·.text == "eu") =
        [.child "eu" (.space { eu with ingress := "first.example" }),
          .child "eu" (.space { eu with ingress := "second.example" })] ∧
      ∀ row ∈ children, ∃ below, row.target = some below ∧
        below.breadcrumbs = "/acme/" ++ row.text ∧ below.parent? = some (.organization acme)) ∧
      reply ((Node.space ap).items twinned) () = (.error (.api 503 ""), ()) := by
  intro acme ap eu
  constructor
  · obtain ⟨answer, next, hanswer, -, hrows⟩ := items_shown twinned (.organization acme) ()
    cases hanswer with
    | spaces o h =>
      cases h
      obtain ⟨up, nothing, children, hreply, hshows⟩ := hrows _ rfl
      have hnothing : nothing = [] := by
        by_contra hne
        cases (hshows.nothing_iff.1 hne).1
      rw [hshows.up_of_some .root rfl, hnothing] at hreply
      refine ⟨children, hreply, hshows.stable "eu", hshows.leads ?_⟩
      rintro _ space ⟨⟩ ⟨name, hspace⟩
      rcases List.mem_cons.1 hspace with heq | hspace
      · cases heq
        rfl
      · rcases List.mem_cons.1 hspace with heq | hspace
        · cases heq
          rfl
        · cases List.mem_singleton.1 hspace
          rfl
  · obtain ⟨answer, next, hanswer, hfails, -⟩ := items_shown twinned (.space ap) ()
    cases hanswer with
    | groups space h =>
      cases h
      exact hfails _ rfl

end Node

end Wayfinder
