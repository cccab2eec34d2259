import Mathlib.Data.List.TakeWhile
import Wayfinder.Place.Server
import Wayfinder.Text.Blank

/-!
Addresses that go on behind another one. Main statement: plain names behind an address of the web
that has neither a query nor a fragment are the last segments of its path, and the host stays
(`parse_extend`). The address is read with the slash behind it: at its very end it would lose spaces
that stay inside the longer one.
-/

set_option autoImplicit false
set_option relaxedAutoImplicit false

namespace Wayfinder

namespace Url

/-! ### Clean texts -/

/-- Whether a character is taken off the ends of an address. -/
def isEdge (c : Char) : Bool := c.toNat ≤ 0x20

/-- Whether a character is passed over within an address. -/
def isBreak (c : Char) : Bool := c == '\t' || c == '\n' || c == '\r'

/-- The end of an address without what is taken off there and what is passed over. -/
def tidy (l : List Char) : List Char := (Text.dropEndWhile isEdge l).filter (!isBreak ·)

/-- A text at the end of which nothing is taken off. -/
def IsClosed (l : List Char) : Prop := ∀ c, l.getLast? = some c → isEdge c = false

theorem isBreak_of_not_isEdge {c : Char} (h : isEdge c = false) : isBreak c = false := by
  unfold isBreak
  simp only [Bool.or_eq_false_iff, beq_eq_false_iff_ne]
  refine ⟨⟨?_, ?_⟩, ?_⟩
  · rintro rfl
    cases h
  · rintro rfl
    cases h
  · rintro rfl
    cases h

theorem filter_not_isBreak {l : List Char} (h : ∀ c ∈ l, isEdge c = false) :
    l.filter (!isBreak ·) = l :=
  List.filter_eq_self.2 fun c hc ↦ by rw [isBreak_of_not_isEdge (h c hc), Bool.not_false]

/-- What is taken off the end of two texts is taken off the second, if the first is closed. -/
theorem dropEndWhile_append_of_isClosed {l : List Char} (h : IsClosed l) (r : List Char) :
    Text.dropEndWhile isEdge (l ++ r) = l ++ Text.dropEndWhile isEdge r := by
  have hl : l.reverse.dropWhile isEdge = l.reverse := by
    have hclosed := congrArg List.reverse (Text.dropEndWhile_eq_self_iff.2 h)
    rwa [Text.dropEndWhile, List.reverse_reverse] at hclosed
  unfold Text.dropEndWhile
  rw [List.reverse_append, List.dropWhile_append, hl]
  split
  · next hempty => simp [List.isEmpty_iff.1 hempty]
  · rw [List.reverse_append, List.reverse_reverse]

theorem isClosed_of_forall {l : List Char} (h : ∀ c ∈ l, isEdge c = false) : IsClosed l :=
  fun c hc ↦ h c (List.mem_of_getLast? hc)

/-- Before a text at the end of which nothing is taken off all of a text stays. -/
theorem tidy_append {r : List Char} (hr : ∀ c ∈ r, isEdge c = false) (hne : r ≠ [])
    (l : List Char) : tidy (l ++ r) = l.filter (!isBreak ·) ++ r := by
  have hclosed : IsClosed (l ++ r) := by
    intro c hc
    rw [List.getLast?_append, List.getLast?_eq_some_getLast hne, Option.some_or] at hc
    exact hr c (Option.some.inj hc ▸ List.getLast_mem hne)
  rw [tidy, Text.dropEndWhile_eq_self_iff.2 hclosed, List.filter_append, filter_not_isBreak hr]

theorem tidy_append_of_forall {l : List Char} (h : ∀ c ∈ l, isEdge c = false) (r : List Char) :
    tidy (l ++ r) = l ++ tidy r := by
  rw [tidy, dropEndWhile_append_of_isClosed (isClosed_of_forall h), List.filter_append,
    filter_not_isBreak h, tidy]

theorem clean_append {start : String} (hne : start ≠ "")
    (hstart : ∀ c ∈ start.toList, isEdge c = false) (rest : String) :
    clean (start ++ rest) = start.toList ++ tidy rest.toList := by
  have hclean : clean (start ++ rest) =
      (Text.dropEndWhile isEdge ((start ++ rest).toList.dropWhile isEdge)).filter (!isBreak ·) :=
    rfl
  have hhead : (start.toList ++ rest.toList).dropWhile isEdge = start.toList ++ rest.toList := by
    refine Text.dropWhile_eq_self_iff_head?.2 fun c hc ↦ ?_
    cases hlist : start.toList with
    | nil => exact absurd (String.toList_eq_nil_iff.1 hlist) hne
    | cons first more =>
      rw [hlist] at hc hstart
      obtain rfl : first = c := Option.some.inj hc
      exact hstart first List.mem_cons_self
  rw [hclean, String.toList_append, hhead]
  exact tidy_append_of_forall hstart rest.toList

/-! ### Schemes and hosts -/

/-- Whether a character is a slash of the web. -/
def isSlash (c : Char) : Bool := c == '/' || c == '\\'

/-- The two schemes of the web that matter here. -/
def IsWeb (scheme : String) : Prop := scheme = "https" ∨ scheme = "http"

theorem IsWeb.isCommon {scheme : String} (h : IsWeb scheme) : isCommon scheme = true := by
  rcases h with rfl | rfl
  · rfl
  · rfl

theorem IsWeb.ne_blob {scheme : String} (h : IsWeb scheme) : scheme ≠ "blob" := by
  rcases h with rfl | rfl
  · decide
  · decide

/-- An address of the web belongs to its own scheme and host. -/
theorem origin_of_isWeb {url : Url} {authority : Authority} (h : IsWeb url.scheme)
    (hauthority : url.authority = some authority) :
    url.origin = url.scheme ++ "://" ++ authority.text := by
  simp only [origin, originWithin, h.ne_blob, hauthority, h.isCommon, if_true, if_false]

theorem IsWeb.not_isEdge {scheme : String} (h : IsWeb scheme) :
    ∀ c ∈ (scheme ++ "://").toList, isEdge c = false := by
  have hall : (scheme ++ "://").toList.all (!isEdge ·) = true := by
    rcases h with rfl | rfl
    · rfl
    · rfl
  intro c hc
  simpa using List.all_eq_true.1 hall c hc

theorem parse_web {scheme : String} (h : IsWeb scheme) (rest : String) :
    parse (scheme ++ "://" ++ rest) =
      withAuthority scheme commonPath ((tidy rest.toList).dropWhile isSlash) := by
  have hedges := h.not_isEdge
  rcases h with rfl | rfl
  · have hclean :
        clean ("https" ++ "://" ++ rest) = ("https" ++ "://").toList ++ tidy rest.toList :=
      clean_append (by decide) hedges rest
    rw [parse, hclean]
    rfl
  · have hclean : clean ("http" ++ "://" ++ rest) = ("http" ++ "://").toList ++ tidy rest.toList :=
      clean_append (by decide) hedges rest
    rw [parse, hclean]
    rfl

theorem takeWhile_append_of_stop {α : Type} {p : α → Bool} {stop : α} (hstop : p stop = false)
    (l r : List α) : (l ++ stop :: r).takeWhile p = l.takeWhile p := by
  induction l with
  | nil => rw [List.nil_append, List.takeWhile_cons, hstop]; rfl
  | cons a l ih => rw [List.cons_append, List.takeWhile_cons, List.takeWhile_cons, ih]

theorem dropWhile_append_of_stop {α : Type} {p : α → Bool} {stop : α} (hstop : p stop = false)
    (l r : List α) : (l ++ stop :: r).dropWhile p = l.dropWhile p ++ stop :: r := by
  induction l with
  | nil => rw [List.nil_append, List.dropWhile_cons, hstop]; rfl
  | cons a l ih =>
    rw [List.cons_append, List.dropWhile_cons, List.dropWhile_cons, ih]
    split
    · rfl
    · rfl

theorem cutAt_of_not_mem {mark : Char} {l : List Char} (h : mark ∉ l) :
    cutAt mark l = (l, none) := by
  have hall : ∀ c ∈ l, decide (c ≠ mark) = true := fun c hc ↦
    decide_eq_true fun heq ↦ h (heq ▸ hc)
  rw [cutAt, List.dropWhile_eq_nil_iff.2 hall]

theorem not_mem_of_cutAt {mark : Char} {l : List Char} (h : (cutAt mark l).2 = none) :
    mark ∉ l := by
  intro hmem
  unfold cutAt at h
  split at h
  · next hnil =>
    have hfalse := List.dropWhile_eq_nil_iff.1 hnil mark hmem
    simp at hfalse
  · cases h

/-- What is before the path: in an address without a query and a fragment all the rest is path. -/
theorem ending_eq {scheme : String} {authority : Option Authority} {path : List Char → Path}
    {l : List Char} (hfragment : '#' ∉ l) (hquery : '?' ∉ l) :
    ending scheme authority path l =
      { scheme, authority, path := path l, query := none, fragment := none } := by
  rw [ending, cutAt_of_not_mem hfragment]
  simp only [cutAt_of_not_mem hquery]
  rfl

theorem marks_of_ending {scheme : String} {authority : Option Authority} {path : List Char → Path}
    {l : List Char} (hquery : (ending scheme authority path l).query = none)
    (hfragment : (ending scheme authority path l).fragment = none) : '#' ∉ l ∧ '?' ∉ l := by
  have hfragmentCut : ((cutAt '#' l).2.map fun l ↦
      String.ofList (Percent.encode Percent.keepsInFragment l)) = none := hfragment
  have hno := not_mem_of_cutAt (Option.map_eq_none_iff.1 hfragmentCut)
  have hqueryCut : ((cutAt '?' l).2.map fun l ↦ String.ofList (Percent.encode
      (Percent.keepsInQuery (isCommon scheme || scheme == "file")) l)) = none := by
    rw [ending, cutAt_of_not_mem hno] at hquery
    exact hquery
  exact ⟨hno, not_mem_of_cutAt (Option.map_eq_none_iff.1 hqueryCut)⟩

/-- The authority of an address, and the text of its path. -/
theorem exists_authority {scheme : String} {l : List Char} {url : Url}
    (h : withAuthority scheme commonPath l = .ok url) (hquery : url.query = none)
    (hfragment : url.fragment = none) :
    ∃ authority tail, readAuthority scheme (l.takeWhile (!endsAuthority (isCommon scheme) ·)) =
        .ok authority ∧ tail = l.dropWhile (!endsAuthority (isCommon scheme) ·) ∧
      '#' ∉ tail ∧ '?' ∉ tail ∧
      url = { scheme, authority := some authority, path := commonPath tail, query := none,
              fragment := none } := by
  unfold withAuthority at h
  cases hauthority : readAuthority scheme (l.takeWhile (!endsAuthority (isCommon scheme) ·)) with
  | error fault => simp [hauthority, bind, Except.bind] at h
  | ok authority =>
    simp only [hauthority, bind, Except.bind, Except.ok.injEq] at h
    subst h
    obtain ⟨hno, hno'⟩ := marks_of_ending hquery hfragment
    exact ⟨authority, _, rfl, rfl, hno, hno', ending_eq hno hno'⟩

/-! ### Segments -/

/-- The characters of a segment stay as they are in a path. It may be a step. -/
def IsKept (segment : String) : Prop :=
  ∀ c ∈ segment.toList, Percent.keepsInPath c = true ∧ c ≠ '/' ∧ c ≠ '\\'

/-- A segment that stays as it is in a path, and is no step. It may be empty, as between two slashes
in a row. -/
structure IsSettled (segment : String) : Prop where
  keeps : ∀ c ∈ segment.toList, Percent.keepsInPath c = true ∧ c ≠ '/' ∧ c ≠ '\\'
  not_up : isStepUp segment.toList = false
  not_stay : isStay segment.toList = false

theorem isSettled_iff {segment : String} : IsSettled segment ↔
    segment.toList.all (fun c ↦ Percent.keepsInPath c && c != '/' && c != '\\') = true ∧
      isStepUp segment.toList = false ∧ isStay segment.toList = false := by
  rw [List.all_eq_true]
  simp only [Bool.and_eq_true, bne_iff_ne, and_assoc]
  exact ⟨fun h ↦ ⟨h.keeps, h.not_up, h.not_stay⟩, fun h ↦ ⟨h.1, h.2.1, h.2.2⟩⟩

instance (segment : String) : Decidable (IsSettled segment) := decidable_of_iff' _ isSettled_iff

/-- A name that stays as it is in a path, and is no step. -/
structure IsPlain (name : String) : Prop extends IsSettled name where
  ne_empty : name ≠ ""

/-- The text of names with a slash before each. -/
def trail (names : List String) : String := String.join (names.map ("/" ++ ·))

/-- Its characters. -/
def behind (names : List String) : List Char := names.flatMap fun name ↦ '/' :: name.toList

/-- The segments of a path that hold anything. -/
def filled (l : List String) : List String := l.filter (!·.isEmpty)

/-- What one segment does. -/
theorem takeSteps_cons (s : List Char) (rest done : List (List Char)) :
    takeSteps done (s :: rest) = takeSteps
      (if isStepUp s then (if rest.isEmpty then done.dropLast ++ [[]] else done.dropLast)
        else if isStay s then (if rest.isEmpty then done ++ [[]] else done)
        else done ++ [s]) rest := by
  rw [takeSteps]
  split
  · rfl
  · split
    · rfl
    · rfl

/-- Segments that are no steps are taken as they are, whatever follows them. -/
theorem takeSteps_settled_append {l : List (List Char)}
    (h : ∀ s ∈ l, isStepUp s = false ∧ isStay s = false) (done r : List (List Char)) :
    takeSteps done (l ++ r) = takeSteps (done ++ l) r := by
  induction l generalizing done with
  | nil => rw [List.nil_append, List.append_nil]
  | cons s rest ih =>
    obtain ⟨hup, hstay⟩ := h s List.mem_cons_self
    rw [List.cons_append, takeSteps_cons, hup, hstay, if_neg Bool.false_ne_true,
      if_neg Bool.false_ne_true, ih fun other hother ↦ h other (List.mem_cons_of_mem _ hother),
      List.append_assoc, List.singleton_append]

theorem takeSteps_plain {l : List (List Char)}
    (h : ∀ s ∈ l, isStepUp s = false ∧ isStay s = false) (done : List (List Char)) :
    takeSteps done l = done ++ l := by
  have happend := takeSteps_settled_append h done []
  rwa [List.append_nil, takeSteps] at happend

/-- Names behind segments come last. A step is taken as it was without them, but for the empty
segment that a step at the very end leaves. -/
theorem takeSteps_append {l : List (List Char)}
    (h : ∀ s ∈ l, isStepUp s = false ∧ isStay s = false) (hne : l ≠ [])
    (before done : List (List Char)) :
    (takeSteps done (before ++ l)).filter (!·.isEmpty) =
      (takeSteps done before).filter (!·.isEmpty) ++ l.filter (!·.isEmpty) := by
  induction before generalizing done with
  | nil => rw [List.nil_append, takeSteps_plain h, List.filter_append, takeSteps]
  | cons s rest ih =>
    have hmore : (rest ++ l).isEmpty = false := by
      rw [← Bool.not_eq_true, List.isEmpty_iff, List.append_eq_nil_iff]
      exact fun hnil ↦ hne hnil.2
    rw [List.cons_append, takeSteps, takeSteps, hmore]
    simp only [Bool.false_eq_true, if_false]
    split
    · rw [ih]
      cases rest with
      | nil => simp [takeSteps]
      | cons other more => rfl
    · split
      · rw [ih]
        cases rest with
        | nil => simp [takeSteps]
        | cons other more => rfl
      · exact ih _

theorem pieces_behind {names : List String} (h : ∀ name ∈ names, IsKept name) (l : List Char) :
    Text.pieces '/' (l ++ behind names) = Text.pieces '/' l ++ names.map String.toList := by
  induction names generalizing l with
  | nil => simp [behind]
  | cons name rest ih =>
    have hname : '/' ∉ name.toList := fun hmem ↦ (h name List.mem_cons_self '/' hmem).2.1 rfl
    have hbehind : behind (name :: rest) = '/' :: (name.toList ++ behind rest) := rfl
    rw [hbehind, Text.pieces_append, ih fun other hother ↦ h other (List.mem_cons_of_mem _ hother),
      Text.pieces_of_not_mem hname]
    rfl

theorem mem_behind {names : List String} {c : Char} (h : c ∈ behind names) (hc : c ≠ '/') :
    ∃ name ∈ names, c ∈ name.toList := by
  obtain ⟨name, hname, hmem⟩ := List.mem_flatMap.1 h
  exact ⟨name, hname, (List.mem_cons.1 hmem).resolve_left hc⟩

theorem not_mem_behind {names : List String} (h : ∀ name ∈ names, IsKept name) {c : Char}
    (hc : c ≠ '/') (hkeeps : Percent.keepsInPath c = false ∨ c = '\\') : c ∉ behind names := by
  intro hmem
  obtain ⟨name, hname, hin⟩ := mem_behind hmem hc
  obtain ⟨hkept, -, hback⟩ := h name hname c hin
  rcases hkeeps with hkeeps | heq
  · rw [hkept] at hkeeps
    cases hkeeps
  · exact hback heq

theorem isEdge_of_mem_behind {names : List String} (h : ∀ name ∈ names, IsKept name)
    {c : Char} (hc : c ∈ behind names) : isEdge c = false := by
  by_cases hslash : c = '/'
  · subst hslash
    rfl
  · obtain ⟨name, hname, hin⟩ := mem_behind hc hslash
    have hkept := (h name hname c hin).1
    simp only [Percent.keepsInPath, Percent.keepsInFragment, Percent.isGraphic, Bool.and_eq_true,
      decide_eq_true_eq, Bool.not_eq_true', Bool.or_eq_false_iff, beq_eq_false_iff_ne] at hkept
    obtain ⟨⟨⟨hlow, -⟩, ⟨⟨⟨hspace, -⟩, -⟩, -⟩, -⟩, -⟩ := hkept
    have hne : c.toNat ≠ 0x20 := fun heq ↦ hspace (Char.toNat_inj.1 heq)
    rw [isEdge, decide_eq_false_iff_not]
    omega

theorem map_slash_of_not_mem {l : List Char} (h : '\\' ∉ l) :
    l.map (fun c ↦ if c = '\\' then '/' else c) = l := by
  refine (List.map_congr_left fun c hc ↦ ?_).trans (List.map_id l)
  have hne : c ≠ '\\' := by
    rintro rfl
    exact h hc
  rw [if_neg hne, id]

theorem map_encode_names {names : List String} (h : ∀ name ∈ names, IsKept name) :
    (names.map String.toList).map (Percent.encode Percent.keepsInPath) =
      names.map String.toList := by
  rw [List.map_map]
  refine List.map_congr_left fun name hname ↦ ?_
  exact Percent.encode_of_keep fun c hc ↦ (h name hname c hc).1

theorem filled_map_ofList (l : List (List Char)) :
    filled (l.map String.ofList) = (l.filter (!·.isEmpty)).map String.ofList := by
  rw [filled, List.filter_map]
  refine congrArg _ (List.filter_congr fun s _ ↦ ?_)
  rw [Function.comp, Bool.eq_iff_iff, Bool.not_eq_true', Bool.not_eq_true', ← Bool.not_eq_true,
    ← Bool.not_eq_true, String.isEmpty_iff, List.isEmpty_iff, String.ofList_eq_empty_iff]

theorem map_ofList_filter_names (names : List String) :
    ((names.map String.toList).filter (!·.isEmpty)).map String.ofList = filled names := by
  rw [← filled_map_ofList, List.map_map]
  exact congrArg filled
    ((List.map_congr_left fun name _ ↦ String.ofList_toList).trans (List.map_id names))

theorem filled_eq_self {names : List String} (h : ∀ name ∈ names, IsPlain name) :
    filled names = names := by
  refine List.filter_eq_self.2 fun name hname ↦ ?_
  rw [Bool.not_eq_true', ← Bool.not_eq_true, String.isEmpty_iff]
  exact (h name hname).ne_empty

theorem not_step_of_mem {names : List String} (h : ∀ name ∈ names, IsSettled name) :
    ∀ s ∈ names.map String.toList, isStepUp s = false ∧ isStay s = false := by
  intro s hs
  obtain ⟨name, hname, rfl⟩ := List.mem_map.1 hs
  exact ⟨(h name hname).not_up, (h name hname).not_stay⟩

/-- The segments of a path with names behind it. -/
theorem filled_segments_append {names : List String} (h : ∀ name ∈ names, IsSettled name)
    (hne : names ≠ []) (l : List Char) :
    filled (segments true (l ++ behind names)) = filled (segments true l) ++ filled names := by
  have hkept : ∀ name ∈ names, IsKept name := fun name hname ↦ (h name hname).keeps
  have hback := not_mem_behind hkept (c := '\\') (by decide) (Or.inr rfl)
  simp only [segments, if_true, List.map_append, map_slash_of_not_mem hback, pieces_behind hkept,
    map_encode_names hkept, filled_map_ofList]
  rw [takeSteps_append (not_step_of_mem h) (by simpa using hne), List.map_append,
    map_ofList_filter_names]

/-- A slash at the end of a path adds no segment that holds anything. -/
theorem filled_segments_slash (l : List Char) :
    filled (segments true (l ++ ['/'])) = filled (segments true l) := by
  have hpieces (m : List Char) : Text.pieces '/' (m ++ ['/']) = Text.pieces '/' m ++ [[]] :=
    Text.pieces_append '/' m []
  have hempty : ∀ s ∈ [([] : List Char)], isStepUp s = false ∧ isStay s = false := by
    intro s hs
    obtain rfl := List.mem_singleton.1 hs
    exact ⟨rfl, rfl⟩
  have hslash : ['/'].map (fun c ↦ if c = '\\' then '/' else c) = ['/'] := rfl
  have hencoded : [([] : List Char)].map (Percent.encode Percent.keepsInPath) = [[]] := rfl
  simp only [segments, if_true, List.map_append, hslash, hpieces, hencoded, filled_map_ofList]
  rw [takeSteps_append hempty (List.cons_ne_nil _ _)]
  exact congrArg _ (List.append_nil _)

/-- The segments of a path that is made of names. -/
theorem filled_segments_names {name : String} {rest : List String}
    (h : ∀ other ∈ name :: rest, IsSettled other) :
    filled (segments true (name.toList ++ behind rest)) = filled (name :: rest) := by
  have hkept : ∀ other ∈ name :: rest, IsKept other := fun other hother ↦ (h other hother).keeps
  have hrest : ∀ other ∈ rest, IsKept other := fun other hother ↦
    hkept other (List.mem_cons_of_mem _ hother)
  have hname := hkept name List.mem_cons_self
  have hback := not_mem_behind hrest (c := '\\') (by decide) (Or.inr rfl)
  have hslashes : '\\' ∉ name.toList ++ behind rest := by
    rw [List.mem_append, not_or]
    exact ⟨fun hmem ↦ (hname _ hmem).2.2 rfl, hback⟩
  have hpieces : Text.pieces '/' (name.toList ++ behind rest) =
      (name :: rest).map String.toList := by
    rw [pieces_behind hrest, Text.pieces_of_not_mem fun hmem ↦ (hname _ hmem).2.1 rfl]
    rfl
  simp only [segments, if_true, map_slash_of_not_mem hslashes, hpieces, map_encode_names hkept,
    takeSteps_plain (not_step_of_mem h), List.nil_append, filled_map_ofList,
    map_ofList_filter_names]

theorem commonPath_cons {c : Char} (h : isSlash c = true) (l : List Char) :
    commonPath (c :: l) = .segments (segments true l) := by
  rw [isSlash, Bool.or_eq_true, beq_iff_eq, beq_iff_eq] at h
  rcases h with rfl | rfl
  · rfl
  · rfl

/-- The segments of a path of the web. -/
def webSegments (l : List Char) : List String :=
  match commonPath l with
  | .segments segments => segments
  | .plain _ => []

/-- The path of an address of the web with names behind it. -/
theorem filled_webSegments_append {names : List String} (h : ∀ name ∈ names, IsSettled name)
    (hne : names ≠ []) {l : List Char} (hl : ∀ c, l.head? = some c → isSlash c = true) :
    filled (webSegments (l ++ behind names)) = filled (webSegments l) ++ filled names := by
  cases l with
  | nil =>
    cases names with
    | nil => exact absurd rfl hne
    | cons name rest =>
      have hbehind : [] ++ behind (name :: rest) = '/' :: (name.toList ++ behind rest) := rfl
      rw [hbehind, webSegments, commonPath_cons rfl]
      exact filled_segments_names h
  | cons c rest =>
    have hc := hl c rfl
    rw [List.cons_append, webSegments, webSegments, commonPath_cons hc, commonPath_cons hc]
    exact filled_segments_append h hne rest

theorem filled_webSegments_slash {l : List Char} (hl : ∀ c, l.head? = some c → isSlash c = true) :
    filled (webSegments (l ++ ['/'])) = filled (webSegments l) := by
  cases l with
  | nil => rfl
  | cons c rest =>
    have hc := hl c rfl
    rw [List.cons_append, webSegments, webSegments, commonPath_cons hc, commonPath_cons hc]
    exact filled_segments_slash rest

/-! ### Whole addresses -/

theorem toList_trail (names : List String) : (trail names).toList = behind names := by
  simp [trail, behind, String.toList_join, List.flatMap_map, String.toList_append]

theorem pathSegments_eq (scheme : String) (authority : Option Authority) (l : List Char)
    (query fragment : Option String) :
    pathSegments { scheme, authority, path := commonPath l, query, fragment } =
      webSegments l := by
  unfold pathSegments webSegments
  cases commonPath l with
  | segments l => rfl
  | plain text => rfl

theorem readAuthority_nil {scheme : String} (h : IsWeb scheme) :
    readAuthority scheme [] = .error .emptyHost := by
  rcases h with rfl | rfl
  · rfl
  · rfl

/-- Where a path begins there is a slash, if there are no marks of a query or a fragment. -/
theorem isSlash_of_head? {common : Bool} {l : List Char} {c : Char}
    (h : (l.dropWhile (!endsAuthority common ·)).head? = some c)
    (hfragment : '#' ∉ l.dropWhile (!endsAuthority common ·))
    (hquery : '?' ∉ l.dropWhile (!endsAuthority common ·)) : isSlash c = true := by
  have hends := List.head?_dropWhile_not (!endsAuthority common ·) l
  have hmem := List.mem_of_head? h
  rw [h] at hends
  have hmark : c ≠ '#' := fun heq ↦ hfragment (heq ▸ hmem)
  have hmark' : c ≠ '?' := fun heq ↦ hquery (heq ▸ hmem)
  simp only [endsAuthority, Bool.not_eq_false', Bool.or_eq_true, Bool.and_eq_true, beq_iff_eq,
    hmark, hmark', or_false] at hends
  rw [isSlash, Bool.or_eq_true, beq_iff_eq, beq_iff_eq]
  exact hends.imp_right And.right

/-- Plain names behind an address of the web without a query and a fragment are read as the last
segments of a path on the same host. -/
theorem parse_extend {scheme rest : String} {names : List String} {url : Url}
    (hscheme : IsWeb scheme) (hparse : parse (scheme ++ "://" ++ rest ++ "/") = .ok url)
    (hquery : url.query = none) (hfragment : url.fragment = none)
    (hnames : ∀ name ∈ names, IsPlain name) (hne : names ≠ []) :
    ∃ longer, parse (scheme ++ "://" ++ rest ++ trail names) = .ok longer ∧
      longer.origin = url.origin ∧
      filled longer.pathSegments = filled url.pathSegments ++ names := by
  obtain ⟨l, hl⟩ : ∃ l, l = (rest.toList.filter (!isBreak ·)).dropWhile isSlash := ⟨_, rfl⟩
  obtain ⟨more, hmore⟩ : ∃ more, behind names = '/' :: more := by
    cases names with
    | nil => exact absurd rfl hne
    | cons name others => exact ⟨_, rfl⟩
  have hsettled : ∀ name ∈ names, IsSettled name := fun name hname ↦
    (hnames name hname).toIsSettled
  have hkept : ∀ name ∈ names, IsKept name := fun name hname ↦ (hsettled name hname).keeps
  have hedge : ∀ c ∈ behind names, isEdge c = false := fun c ↦ isEdge_of_mem_behind hkept
  have hslashText : "/".toList = ['/'] := rfl
  have hslashEdge : ∀ c ∈ ['/'], isEdge c = false := by
    intro c hc
    obtain rfl := List.mem_singleton.1 hc
    rfl
  rw [String.append_assoc, parse_web hscheme, String.toList_append, hslashText,
    tidy_append hslashEdge (List.cons_ne_nil _ _)] at hparse
  have hshort : (rest.toList.filter (!isBreak ·) ++ ['/']).dropWhile isSlash =
      if l.isEmpty then [] else l ++ ['/'] := by
    rw [List.dropWhile_append, ← hl]
    rfl
  have hnonempty : l.isEmpty = false := by
    rw [← Bool.not_eq_true]
    intro hempty
    rw [hshort, if_pos hempty, withAuthority, List.takeWhile_nil,
      readAuthority_nil hscheme] at hparse
    cases hparse
  rw [hshort, hnonempty, if_neg Bool.false_ne_true] at hparse
  -- What is read behind the scheme is longer by the names, and by nothing else.
  have hlonger : (tidy (rest ++ trail names).toList).dropWhile isSlash =
      l ++ behind names := by
    rw [String.toList_append, toList_trail,
      tidy_append hedge (by rw [hmore]; exact List.cons_ne_nil _ _), List.dropWhile_append, ← hl,
      hnonempty, if_neg Bool.false_ne_true]
  obtain ⟨authority, tail, hauthority, htail, hno, hno', rfl⟩ :=
    exists_authority hparse hquery hfragment
  have hslash : (!endsAuthority (isCommon scheme) '/') = false := rfl
  have htake := fun r ↦
    takeWhile_append_of_stop (p := (!endsAuthority (isCommon scheme) ·)) hslash l r
  have hdrop := fun r ↦
    dropWhile_append_of_stop (p := (!endsAuthority (isCommon scheme) ·)) hslash l r
  rw [htake] at hauthority
  rw [hdrop] at htail
  subst htail
  rw [List.mem_append, not_or] at hno hno'
  have hhead : ∀ c, (l.dropWhile (!endsAuthority (isCommon scheme) ·)).head? = some c →
      isSlash c = true := fun c hc ↦ isSlash_of_head? hc hno.1 hno'.1
  refine ⟨{ scheme, authority := some authority
            path := commonPath (l.dropWhile (!endsAuthority (isCommon scheme) ·) ++ behind names)
            query := none, fragment := none }, ?_, ?_, ?_⟩
  · rw [String.append_assoc, parse_web hscheme, hlonger, withAuthority, hmore, htake, hdrop,
      hauthority, ← hmore]
    refine congrArg Except.ok (ending_eq ?_ ?_)
    · rw [List.mem_append, not_or]
      exact ⟨hno.1, not_mem_behind hkept (by decide) (Or.inl rfl)⟩
    · rw [List.mem_append, not_or]
      exact ⟨hno'.1, not_mem_behind hkept (by decide) (Or.inl rfl)⟩
  · rw [origin_of_isWeb hscheme rfl, origin_of_isWeb hscheme rfl]
  · rw [pathSegments_eq, pathSegments_eq, filled_webSegments_slash hhead]
    rw [filled_webSegments_append hsettled hne hhead, filled_eq_self hnames]

end Url

/-! ### Names of resources -/

/-- The characters in the names of resources. -/
def nameChars : List Char := "abcdefghijklmnopqrstuvwxyz0123456789-.".toList

/-- A name as resources of Kubernetes have it: small letters, digits, hyphens and full stops, with a
letter or a digit first. -/
structure IsResourceName (name : String) : Prop where
  chars : ∀ c ∈ name.toList, c ∈ nameChars
  first : ∃ c, name.toList.head? = some c ∧ c ≠ '-' ∧ c ≠ '.'

theorem isResourceName_iff {name : String} : IsResourceName name ↔
    name.toList.all nameChars.contains = true ∧
      name.toList.head?.any (fun c ↦ c != '-' && c != '.') = true := by
  rw [List.all_eq_true, Option.any_eq_true]
  simp only [List.contains_iff_mem, Bool.and_eq_true, bne_iff_ne]
  exact ⟨fun h ↦ ⟨h.chars, h.first⟩, fun h ↦ ⟨h.1, h.2⟩⟩

instance (name : String) : Decidable (IsResourceName name) := decidable_of_iff' _ isResourceName_iff

theorem IsResourceName.ne_empty {name : String} (h : IsResourceName name) : name ≠ "" := by
  rintro rfl
  obtain ⟨c, hc, -⟩ := h.first
  cases hc

/-- The characters of names stay as they are in a path, in small letters too. -/
theorem keeps_of_mem_nameChars {c : Char} (h : c ∈ nameChars) :
    Url.Percent.keepsInPath c = true ∧ c ≠ '/' ∧ c ≠ '\\' ∧ c.toLower = c ∧ c ≠ '%' := by
  have hall : nameChars.all (fun c ↦ Url.Percent.keepsInPath c && c != '/' && c != '\\' &&
      c.toLower == c && c != '%') = true := rfl
  simpa [and_assoc] using List.all_eq_true.1 hall c h

theorem IsResourceName.isPlain {name : String} (h : IsResourceName name) : Url.IsPlain name := by
  obtain ⟨c, hc, -, hpoint⟩ := h.first
  obtain ⟨rest, hlist⟩ := List.head?_eq_some_iff.1 hc
  obtain ⟨-, -, -, hlower, hpercent⟩ := keeps_of_mem_nameChars (h.chars c (List.mem_of_head? hc))
  refine ⟨⟨fun other hother ↦ ?_, ?_, ?_⟩, h.ne_empty⟩
  · obtain ⟨hkeeps, hslash, hback, -⟩ := keeps_of_mem_nameChars (h.chars other hother)
    exact ⟨hkeeps, hslash, hback⟩
  · rw [hlist]
    simp [Url.isStepUp, hlower, hpoint, hpercent]
  · rw [hlist]
    simp [Url.isStay, hlower, hpoint, hpercent]

/-! ### Servers -/

namespace ServerPath

open Url

/-- The address has no segments that would be taken for those of a Kubernetes API. -/
def IsBare (url : Url) : Prop :=
  ∀ segment ∈ url.pathSegments, segment ≠ "api" ∧ segment ≠ "apis" ∧ segment ≠ "namespaces"

/-- The segments behind a space that lead to a control plane. -/
def route (group controlPlane : String) : List String :=
  ["apis", "spaces.upbound.io", "v1beta1", "namespaces", group, "controlplanes", controlPlane,
    "k8s"]

theorem isPlain_route {group controlPlane : String} (hgroup : IsResourceName group)
    (hcontrolPlane : IsResourceName controlPlane) :
    ∀ name ∈ route group controlPlane, IsPlain name := by
  have hnames : ∀ name ∈ route group controlPlane, IsResourceName name := by
    simp only [route, List.forall_mem_cons, List.not_mem_nil, false_implies, implies_true,
      and_true]
    exact ⟨by decide, by decide, by decide, by decide, hgroup, by decide, hcontrolPlane, by decide⟩
  exact fun name hname ↦ (hnames name hname).isPlain

variable {url longer : Url} {group controlPlane : String}

theorem parse_of_url {server : String} (h : Url.parse server = .ok url) :
    parse server = .ok (ofUrl url) := by
  rw [parse, h]

theorem ofUrl_eq (url : Url) : ofUrl url =
    { base := url.origin ++ trail (endpoint (filled url.pathSegments))
      group := (names (filled url.pathSegments)).1
      controlPlane := (names (filled url.pathSegments)).2 } := rfl

theorem IsBare.of_mem_filled (h : IsBare url) {segment : String}
    (hsegment : segment ∈ filled url.pathSegments) :
    segment ≠ "api" ∧ segment ≠ "apis" ∧ segment ≠ "namespaces" :=
  h segment (List.mem_filter.1 hsegment).1

section Segments

variable {l : List String}
  (h : ∀ segment ∈ l, segment ≠ "api" ∧ segment ≠ "apis" ∧ segment ≠ "namespaces")

include h

theorem isApi_false {segment : String} (hsegment : segment ∈ l) :
    (segment == "apis" || segment == "api") = false := by
  obtain ⟨hapi, hapis, -⟩ := h segment hsegment
  rw [Bool.or_eq_false_iff, beq_eq_false_iff_ne, beq_eq_false_iff_ne]
  exact ⟨hapis, hapi⟩

theorem ne_namespaces {segment : String} (hsegment : segment ∈ l) :
    (segment != "namespaces") = true :=
  bne_iff_ne.2 (h segment hsegment).2.2

/-- Segments before all words of a route belong to the endpoint. -/
theorem endpoint_append (rest : List String) : endpoint (l ++ rest) = l ++ endpoint rest := by
  have hany : l.any (fun s ↦ s == "apis" || s == "api") = false := by
    rw [List.any_eq_false]
    intro segment hsegment
    rw [isApi_false h hsegment]
    exact Bool.false_ne_true
  have hall : ∀ segment ∈ l, (!(segment == "apis" || segment == "api")) = true := by
    intro segment hsegment
    rw [isApi_false h hsegment, Bool.not_false]
  rw [endpoint, endpoint]
  simp only [List.any_append, hany, Bool.false_or]
  split
  · exact List.takeWhile_append_of_pos hall
  · exact List.takeWhile_append_of_pos fun _ ↦ ne_namespaces h

theorem names_append (rest : List String) : names (l ++ rest) = names rest := by
  rw [names, List.dropWhile_append_of_pos fun _ ↦ ne_namespaces h, names]

theorem endpoint_of_forall : endpoint l = l := by
  have hend := endpoint_append h []
  have hnil : endpoint [] = [] := rfl
  rwa [hnil, List.append_nil] at hend

theorem names_of_forall : names l = (none, none) := by
  have hend := names_append h []
  rwa [List.append_nil] at hend

theorem endpoint_append_route : endpoint (l ++ route group controlPlane) = l := by
  have hroute : endpoint (route group controlPlane) = [] := rfl
  rw [endpoint_append h, hroute, List.append_nil]

theorem names_append_route :
    names (l ++ route group controlPlane) = (some group, some controlPlane) :=
  names_append h (route group controlPlane)

end Segments

/-- All segments of a bare address belong to the endpoint. -/
theorem ofUrl_of_isBare (h : IsBare url) : ofUrl url =
    { base := url.origin ++ trail (filled url.pathSegments)
      group := none
      controlPlane := none } := by
  have hfilled : ∀ segment ∈ filled url.pathSegments, _ := fun _ ↦ h.of_mem_filled
  rw [ofUrl_eq, endpoint_of_forall hfilled, names_of_forall hfilled]

/-- Behind a bare address the route leads to its group and its control plane. -/
theorem ofUrl_route (h : IsBare url) (horigin : longer.origin = url.origin)
    (hsegments : filled longer.pathSegments = filled url.pathSegments ++ route group controlPlane) :
    ofUrl longer =
      { base := (ofUrl url).base, group := some group, controlPlane := some controlPlane } := by
  have hfilled : ∀ segment ∈ filled url.pathSegments, _ := fun _ ↦ h.of_mem_filled
  rw [ofUrl_eq, hsegments, endpoint_append_route hfilled, names_append_route hfilled, horigin,
    ofUrl_of_isBare h]

end ServerPath

end Wayfinder
