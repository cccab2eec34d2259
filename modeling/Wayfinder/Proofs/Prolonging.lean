import Wayfinder.Proofs.Endpoints

/-!
Addresses that go on behind the same beginning, with names that are kept as they are but may be
steps. They have the scheme and the host of that beginning (`Url.Begins.parse_eq`). Main statement:
their paths take the names one by one from where the path of the beginning leads
(`Url.exists_commonPath_behind`), because what follows a step at the end of the beginning takes the
place of the empty segment that the step would leave there (`Url.takeSteps_before`).

The segments that others go on behind are all but an empty one at the end (`Url.directory`). A slash
behind an address makes no difference to them, if the end of the address is read as it is written
(`Url.exists_parse_slash`).
-/

set_option autoImplicit false
set_option relaxedAutoImplicit false

namespace Wayfinder

namespace Url

/-! ### Addresses that go on -/

/-- The start of an address without what is taken off there and what is passed over. -/
def opening (s : String) : List Char := (s.toList.dropWhile isEdge).filter (!isBreak ·)

/-- An address of the web begins with `s`: with its scheme, and with `l` behind any slashes. -/
structure Begins (s scheme : String) (l : List Char) : Prop where
  web : IsWeb scheme
  read : ∃ rest, scheme? (opening s) = some (scheme, rest) ∧ rest.dropWhile isSlash = l
  ne_nil : l ≠ []

/-- What stands behind a scheme and its slashes up to the path. -/
def hostPart (l : List Char) : List Char := l.takeWhile (!endsAuthority true ·)

/-- The path, and what stands behind it. -/
def pathPart (l : List Char) : List Char := l.dropWhile (!endsAuthority true ·)

variable {s scheme : String} {l : List Char} {names : List String}

theorem exists_behind_eq (hne : names ≠ []) : ∃ more, behind names = '/' :: more := by
  cases names with
  | nil => exact absurd rfl hne
  | cons name rest => exact ⟨_, rfl⟩

theorem clean_trail (hkept : ∀ name ∈ names, IsKept name) (hne : names ≠ []) (s : String) :
    clean (s ++ trail names) = opening s ++ behind names := by
  obtain ⟨more, hmore⟩ := exists_behind_eq hne
  have hedge : ∀ c ∈ behind names, isEdge c = false := fun c ↦ isEdge_of_mem_behind hkept
  have hclean : clean (s ++ trail names) = tidy ((s ++ trail names).toList.dropWhile isEdge) := rfl
  have hstart : (s.toList ++ behind names).dropWhile isEdge =
      s.toList.dropWhile isEdge ++ behind names := by
    rw [List.dropWhile_append]
    split
    · next hempty =>
      rw [List.isEmpty_iff.1 hempty, hmore]
      rfl
    · rfl
  have hbehind : behind names ≠ [] := by
    rw [hmore]
    exact List.cons_ne_nil _ _
  rw [hclean, String.toList_append, toList_trail, hstart, tidy_append hedge hbehind, opening]

/-- A scheme is read before the first slash. -/
theorem scheme?_append_slash (l r : List Char) :
    scheme? (l ++ '/' :: r) = (scheme? l).map fun p ↦ (p.1, p.2 ++ '/' :: r) := by
  cases l with
  | nil => rfl
  | cons c rest =>
    obtain ⟨p, hp⟩ : ∃ p : Char → Bool,
        p = fun c ↦ c.isAlphanum || c == '+' || c == '-' || c == '.' := ⟨_, rfl⟩
    have hstop : p '/' = false := by
      rw [hp]
      rfl
    rw [List.cons_append, scheme?, scheme?, ← hp, ← List.cons_append,
      takeWhile_append_of_stop hstop, dropWhile_append_of_stop hstop]
    split
    · rfl
    · cases (c :: rest).dropWhile p with
      | nil => rfl
      | cons d more =>
        by_cases hd : d = ':'
        · subst hd
          rfl
        · simp [hd]

/-- What is read of an address that begins so, up to the names behind it. -/
theorem Begins.parse_eq (h : Begins s scheme l) (hkept : ∀ name ∈ names, IsKept name)
    (hne : names ≠ []) :
    parse (s ++ trail names) = (readAuthority scheme (hostPart l)).map fun authority ↦
      ending scheme (some authority) commonPath (pathPart l ++ behind names) := by
  obtain ⟨more, hmore⟩ := exists_behind_eq hne
  obtain ⟨rest, hscheme, rfl⟩ := h.read
  have hfile : scheme ≠ "file" := by
    rcases h.web with rfl | rfl
    · decide
    · decide
  have hslash : (!endsAuthority true '/') = false := rfl
  have hempty : (rest.dropWhile isSlash).isEmpty = false :=
    List.isEmpty_eq_false_iff.2 h.ne_nil
  have hrest : (rest ++ '/' :: more).dropWhile isSlash = rest.dropWhile isSlash ++ '/' :: more := by
    rw [List.dropWhile_append, hempty, if_neg Bool.false_ne_true]
  have hread : scheme? (opening s ++ '/' :: more) = some (scheme, rest ++ '/' :: more) := by
    rw [scheme?_append_slash, hscheme, Option.map_some]
  have htake : (rest.dropWhile isSlash ++ '/' :: more).takeWhile (!endsAuthority true ·) =
      hostPart (rest.dropWhile isSlash) :=
    takeWhile_append_of_stop (p := (!endsAuthority true ·)) hslash _ _
  have hdrop : (rest.dropWhile isSlash ++ '/' :: more).dropWhile (!endsAuthority true ·) =
      pathPart (rest.dropWhile isSlash) ++ '/' :: more :=
    dropWhile_append_of_stop (p := (!endsAuthority true ·)) hslash _ _
  rw [parse, clean_trail hkept hne, hmore, hread]
  simp only [hfile, if_false, h.web.isCommon, if_true]
  refine (congrArg (withAuthority scheme commonPath) hrest).trans ?_
  rw [withAuthority, h.web.isCommon, htake, hdrop]
  cases readAuthority scheme (hostPart (rest.dropWhile isSlash)) with
  | error fault => rfl
  | ok authority => rfl

theorem scheme_of_withAuthority {path : List Char → Path} {url : Url}
    (h : withAuthority scheme path l = .ok url) : url.scheme = scheme := by
  obtain ⟨authority, -, hurl⟩ := Switch.bind_eq_ok h
  obtain rfl := Except.ok.inj hurl
  rfl

/-- An address of the web is a scheme, and a host and a path behind any slashes. -/
theorem exists_read_of_parse {url : Url} (h : parse s = .ok url) (hweb : IsWeb url.scheme) :
    ∃ rest, scheme? (clean s) = some (url.scheme, rest) ∧
      withAuthority url.scheme commonPath (rest.dropWhile isSlash) = .ok url := by
  unfold parse at h
  split at h
  · cases h
  · next scheme rest hscheme =>
    split at h
    · obtain ⟨authority, l, rfl⟩ := exists_ending_of_fileUrl h
      have hfile : isCommon "file" = true := hweb.isCommon
      exact absurd hfile (by decide)
    · split at h
      · obtain rfl := scheme_of_withAuthority h
        exact ⟨rest, hscheme, h⟩
      · next hcommon =>
        have hsame : url.scheme = scheme := by
          split at h
          · exact scheme_of_withAuthority h
          · obtain rfl := Except.ok.inj h
            rfl
        exact absurd (hsame ▸ hweb.isCommon) hcommon

/-- An address of the web that can be read with a slash behind it is the beginning of others. -/
theorem exists_begins {url : Url} (h : parse (s ++ "/") = .ok url) (hweb : IsWeb url.scheme) :
    ∃ l, Begins s url.scheme l := by
  obtain ⟨rest, hscheme, hread⟩ := exists_read_of_parse h hweb
  have hsettled : ∀ name ∈ [""], IsSettled name := by decide
  have hclean : clean (s ++ "/") = opening s ++ ['/'] :=
    clean_trail (fun name hname ↦ (hsettled name hname).keeps) (List.cons_ne_nil _ _) s
  rw [hclean, scheme?_append_slash, Option.map_eq_some_iff] at hscheme
  obtain ⟨⟨scheme, start⟩, hstart, hpair⟩ := hscheme
  cases hpair
  refine ⟨start.dropWhile isSlash, hweb, ⟨start, hstart, rfl⟩, fun hnil ↦ ?_⟩
  -- Of slashes alone no host is read.
  have hslashes : (start ++ ['/']).dropWhile isSlash = [] := by
    rw [List.dropWhile_append, hnil]
    rfl
  rw [hslashes, withAuthority, List.takeWhile_nil, readAuthority_nil hweb] at hread
  cases hread

/-! ### Paths that go on -/

theorem map_ofList_toList (l : List String) : (l.map String.toList).map String.ofList = l := by
  rw [List.map_map]
  exact (List.map_congr_left fun s _ ↦ String.ofList_toList).trans (List.map_id l)

theorem map_toList_ofList (l : List (List Char)) : (l.map String.ofList).map String.toList = l := by
  rw [List.map_map]
  exact (List.map_congr_left fun s _ ↦ String.toList_ofList).trans (List.map_id l)

/-- Where more follows, steps are taken as before an empty segment. -/
theorem takeSteps_before {l : List (List Char)} (hne : l ≠ []) (before done : List (List Char)) :
    takeSteps done (before ++ l) = takeSteps (takeSteps done (before ++ [[]])).dropLast l := by
  induction before generalizing done with
  | nil =>
    have hempty : takeSteps done [[]] = done ++ [[]] := rfl
    rw [List.nil_append, List.nil_append, hempty, List.dropLast_concat]
  | cons s rest ih =>
    have hmore : (rest ++ l).isEmpty = false :=
      List.isEmpty_eq_false_iff.2 fun hnil ↦ hne (List.append_eq_nil_iff.1 hnil).2
    have hslash : (rest ++ [[]]).isEmpty = false :=
      List.isEmpty_eq_false_iff.2 fun hnil ↦
        List.cons_ne_nil _ _ (List.append_eq_nil_iff.1 hnil).2
    rw [List.cons_append, List.cons_append, takeSteps_cons s (rest ++ l), takeSteps_cons s, hmore,
      hslash]
    exact ih _

theorem segments_behind (hkept : ∀ name ∈ names, IsKept name) (l : List Char) :
    segments true (l ++ behind names) =
      (takeSteps [] ((Text.pieces '/' (l.map fun c ↦ if c = '\\' then '/' else c)).map
        (Percent.encode Percent.keepsInPath) ++ names.map String.toList)).map String.ofList := by
  have hback := not_mem_behind hkept (c := '\\') (by decide) (Or.inr rfl)
  simp only [segments, if_true, List.map_append, map_slash_of_not_mem hback, pieces_behind hkept,
    map_encode_names hkept]

theorem commonPath_behind (hkept : ∀ name ∈ names, IsKept name) (hne : names ≠ []) :
    commonPath (behind names) =
      .segments ((takeSteps [] (names.map String.toList)).map String.ofList) := by
  obtain ⟨more, hmore⟩ := exists_behind_eq hne
  have hback := not_mem_behind hkept (c := '\\') (by decide) (Or.inr rfl)
  have hpieces := pieces_behind hkept []
  rw [List.nil_append, hmore] at hpieces
  have hmoreBack : '\\' ∉ more := fun hmem ↦ hback (hmore ▸ List.mem_cons_of_mem _ hmem)
  have hmorePieces : Text.pieces '/' more = names.map String.toList :=
    List.tail_eq_of_cons_eq hpieces
  rw [hmore, commonPath_cons rfl]
  simp only [segments, if_true, map_slash_of_not_mem hmoreBack, hmorePieces, map_encode_names hkept]

/-- Behind a path names are taken one by one from where it leads. -/
theorem exists_commonPath_behind (hl : ∀ c, l.head? = some c → isSlash c = true) :
    ∃ done, ∀ names, (∀ name ∈ names, IsKept name) → names ≠ [] →
      commonPath (l ++ behind names) =
        .segments ((takeSteps done (names.map String.toList)).map String.ofList) := by
  cases l with
  | nil => exact ⟨[], fun names hkept hne ↦ commonPath_behind hkept hne⟩
  | cons c rest =>
    refine ⟨(takeSteps [] ((Text.pieces '/' (rest.map fun c ↦ if c = '\\' then '/' else c)).map
      (Percent.encode Percent.keepsInPath) ++ [[]])).dropLast, fun names hkept hne ↦ ?_⟩
    have hnames : names.map String.toList ≠ [] := mt List.map_eq_nil_iff.1 hne
    rw [List.cons_append, commonPath_cons (hl c rfl), segments_behind hkept,
      takeSteps_before hnames]

/-- Segments without an empty one at their end. -/
def directoryOf (l : List String) : List String := if l.getLast? = some "" then l.dropLast else l

/-- The segments of an address that others go on behind. -/
def directory (u : Url) : List String := directoryOf u.pathSegments

theorem directoryOf_append {r : List String} (hr : r ≠ []) (l : List String) :
    directoryOf (l ++ r) = l ++ directoryOf r := by
  rw [directoryOf, directoryOf, List.getLast?_append_of_ne_nil _ hr]
  split
  · exact List.dropLast_append_of_ne_nil hr
  · rfl

theorem mem_of_mem_directoryOf {l : List String} {segment : String} (h : segment ∈ directoryOf l) :
    segment ∈ l := by
  rw [directoryOf] at h
  split at h
  · exact (List.dropLast_sublist l).subset h
  · exact h

/-! ### A slash behind an address -/

/-- A text at the end of which nothing is taken off an address, and that does not end in a slash. -/
def EndsInside (s : String) : Prop :=
  ∀ c, s.toList.getLast? = some c → isEdge c = false ∧ isSlash c = false

theorem getLast?_of_isSuffix {l r : List Char} (h : l <:+ r) {c : Char}
    (hc : l.getLast? = some c) : r.getLast? = some c := by
  obtain ⟨before, rfl⟩ := h
  rw [List.getLast?_append, hc, Option.some_or]

/-- The last piece of a text that does not end in the separator holds something. -/
theorem ne_nil_of_getLast?_pieces {sep : Char} {l piece : List Char} (hne : l ≠ [])
    (hlast : ∀ c, l.getLast? = some c → c ≠ sep)
    (h : (Text.pieces sep l).getLast? = some piece) : piece ≠ [] := by
  induction l with
  | nil => exact absurd rfl hne
  | cons c rest ih =>
    cases rest with
    | nil =>
      rw [Text.pieces, if_neg (hlast c rfl)] at h
      obtain rfl := Option.some.inj h
      exact List.cons_ne_nil _ _
    | cons d more =>
      have hmore := ih (List.cons_ne_nil _ _) fun e he ↦ hlast e he
      obtain ⟨first, others, hpieces⟩ := List.exists_cons_of_ne_nil
        (Text.pieces_ne_nil sep (d :: more))
      rw [hpieces] at hmore
      rw [Text.pieces, hpieces] at h
      split at h
      · exact hmore h
      · cases others with
        | nil =>
          obtain rfl := Option.some.inj h
          exact List.cons_ne_nil _ _
        | cons next others => exact hmore h

theorem Percent.encode_ne_nil {keep : Char → Bool} {l : List Char} (hne : l ≠ []) :
    Percent.encode keep l ≠ [] := by
  cases l with
  | nil => exact absurd rfl hne
  | cons c rest =>
    have hcons : Percent.encode keep (c :: rest) = Percent.encodeChar keep c ++
        Percent.encode keep rest := rfl
    rw [hcons, Percent.encodeChar]
    split
    · exact List.cons_ne_nil _ _
    · cases hbytes : String.utf8EncodeChar c with
      | nil => exact absurd hbytes String.utf8EncodeChar_ne_nil
      | cons b more => exact List.cons_ne_nil _ _

theorem directoryOf_slash (l : List (List Char)) :
    directoryOf ((l ++ [[]]).map String.ofList) = l.map String.ofList := by
  rw [List.map_append, directoryOf_append (by simp)]
  exact List.append_nil _

theorem directoryOf_of_ne_nil {piece : List Char} (hne : piece ≠ []) (l : List (List Char)) :
    directoryOf ((l ++ [piece]).map String.ofList) = (l ++ [piece]).map String.ofList := by
  have hpiece : directoryOf [String.ofList piece] = [String.ofList piece] :=
    if_neg fun h ↦ hne (String.ofList_eq_empty_iff.1 (Option.some.inj h))
  rw [List.map_append, directoryOf_append (by simp)]
  exact congrArg _ hpiece

/-- An empty segment behind others makes no difference to where they lead. -/
theorem directoryOf_takeSteps {before : List (List Char)} (hne : before ≠ [])
    (hlast : ∀ piece, before.getLast? = some piece → piece ≠ []) (done : List (List Char)) :
    directoryOf ((takeSteps done before).map String.ofList) =
      directoryOf ((takeSteps done (before ++ [[]])).map String.ofList) := by
  induction before generalizing done with
  | nil => exact absurd rfl hne
  | cons s rest ih =>
    cases rest with
    | nil =>
      rw [List.singleton_append, takeSteps_cons s [], takeSteps_cons s [[]]]
      split
      · rfl
      · split
        · rfl
        · have hslash : takeSteps (done ++ [s]) [[]] = done ++ [s] ++ [[]] := rfl
          rw [takeSteps, hslash, directoryOf_of_ne_nil (hlast s rfl), directoryOf_slash]
    | cons next more =>
      have hmore := ih (List.cons_ne_nil _ _) fun piece hpiece ↦ hlast piece hpiece
      rw [List.cons_append, takeSteps_cons s (next :: more), takeSteps_cons s]
      exact hmore _

/-- A slash behind a path makes no difference to the segments that others go on behind. -/
theorem directoryOf_webSegments_slash {l : List Char}
    (hhead : ∀ c, l.head? = some c → isSlash c = true)
    (hlast : ∀ c, l.getLast? = some c → isSlash c = false) :
    directoryOf (webSegments (l ++ ['/'])) = directoryOf (webSegments l) := by
  cases l with
  | nil => rfl
  | cons c rest =>
    have hc := hhead c rfl
    have hrest : rest ≠ [] := by
      rintro rfl
      exact Bool.false_ne_true ((hlast c rfl).symm.trans hc)
    have hsettled : ∀ name ∈ [""], IsSettled name := by decide
    have hslash := segments_behind (fun name hname ↦ (hsettled name hname).keeps) rest
    have hbehind : Url.behind [""] = ['/'] := rfl
    rw [hbehind] at hslash
    rw [List.cons_append, webSegments, webSegments, commonPath_cons hc, commonPath_cons hc]
    simp only [hslash]
    simp only [segments, if_true]
    refine (directoryOf_takeSteps ?_ ?_ []).symm
    · exact mt List.map_eq_nil_iff.1 (Text.pieces_ne_nil _ _)
    · intro piece hpiece
      rw [List.getLast?_map, Option.map_eq_some_iff] at hpiece
      obtain ⟨written, hwritten, rfl⟩ := hpiece
      refine Percent.encode_ne_nil (ne_nil_of_getLast?_pieces ?_ (fun d hd ↦ ?_) hwritten)
      · exact mt List.map_eq_nil_iff.1 hrest
      · rw [List.getLast?_map, Option.map_eq_some_iff] at hd
        obtain ⟨e, he, rfl⟩ := hd
        have hinside := hlast e (getLast?_of_isSuffix (List.suffix_cons c rest) he)
        rw [isSlash, Bool.or_eq_false_iff, beq_eq_false_iff_ne, beq_eq_false_iff_ne] at hinside
        rw [if_neg hinside.2]
        exact hinside.1

theorem isSuffix_of_scheme? {rest : List Char} (h : scheme? l = some (scheme, rest)) :
    rest <:+ l := by
  cases l with
  | nil => cases h
  | cons c more =>
    simp only [scheme?] at h
    split at h
    · cases h
    · split at h
      · next hdrop =>
        obtain ⟨-, rfl⟩ := Prod.mk.inj (Option.some.inj h)
        exact (List.suffix_cons ':' _).trans (hdrop ▸ List.dropWhile_suffix _)
      · cases h

/-- A text that ends inside is read to its end, whatever follows it. -/
theorem EndsInside.opening_eq (hend : EndsInside s) (hne : s ≠ "") :
    ∃ before c, isSlash c = false ∧ opening s = before ++ [c] ∧ clean s = before ++ [c] := by
  obtain ⟨before, c, hs⟩ := List.eq_nil_or_concat s.toList |>.resolve_left
    (mt String.toList_eq_nil_iff.1 hne)
  rw [List.concat_eq_append] at hs
  obtain ⟨hedge, hslash⟩ := hend c (by rw [hs, List.getLast?_concat])
  have hdrop : s.toList.dropWhile isEdge = before.dropWhile isEdge ++ [c] := by
    rw [hs]
    exact dropWhile_append_of_stop hedge before []
  have hbreak : [c].filter (!isBreak ·) = [c] :=
    filter_not_isBreak fun d hd ↦ List.mem_singleton.1 hd ▸ hedge
  have hopening : opening s = (before.dropWhile isEdge).filter (!isBreak ·) ++ [c] := by
    rw [opening, hdrop, List.filter_append, hbreak]
  have hclean : clean s = tidy (s.toList.dropWhile isEdge) := rfl
  refine ⟨_, c, hslash, hopening, ?_⟩
  rw [hclean, hdrop, tidy_append (fun d hd ↦ List.mem_singleton.1 hd ▸ hedge)
    (List.cons_ne_nil _ _)]

/-- An address whose end is read as it is written has the same scheme and host with a slash behind
it, and others go on behind it in the same way. -/
theorem exists_parse_slash {url : Url} (hend : EndsInside s) (h : parse s = .ok url)
    (hweb : IsWeb url.scheme) (hquery : url.query = none) (hfragment : url.fragment = none) :
    ∃ slashed, parse (s ++ "/") = .ok slashed ∧ slashed.directory = url.directory := by
  obtain ⟨rest, hscheme, hread⟩ := exists_read_of_parse h hweb
  obtain ⟨authority, tail, hauthority, htail, hno, hno', hurl⟩ :=
    exists_authority hread hquery hfragment
  rw [hweb.isCommon] at hauthority htail
  have hne : s ≠ "" := by
    rintro rfl
    cases hscheme
  obtain ⟨before, c, hslash, hopening, hclean⟩ := hend.opening_eq hne
  have hbegins : Begins s url.scheme (rest.dropWhile isSlash) := by
    refine ⟨hweb, ⟨rest, ?_, rfl⟩, fun hnil ↦ ?_⟩
    · rw [hopening, ← hclean, hscheme]
    · rw [hnil, List.takeWhile_nil, readAuthority_nil hweb] at hauthority
      cases hauthority
  have hsettled : ∀ name ∈ [""], IsSettled name := by decide
  have hparse := hbegins.parse_eq
    (fun name hname ↦ (hsettled name hname).keeps) (List.cons_ne_nil _ _)
  have hhost : readAuthority url.scheme (hostPart (rest.dropWhile isSlash)) = .ok authority :=
    hauthority
  have hpath : pathPart (rest.dropWhile isSlash) = tail := htail.symm
  rw [hhost, hpath] at hparse
  have hlast : ∀ d, tail.getLast? = some d → isSlash d = false := by
    intro d hd
    have hsuffix : tail <:+ clean s := by
      rw [htail]
      exact ((List.dropWhile_suffix _).trans (List.dropWhile_suffix _)).trans
        (isSuffix_of_scheme? hscheme)
    have hinside := getLast?_of_isSuffix hsuffix hd
    rw [hclean, List.getLast?_concat] at hinside
    exact Option.some.inj hinside ▸ hslash
  have hhead : ∀ d, tail.head? = some d → isSlash d = true := by
    subst htail
    exact fun d hd ↦ isSlash_of_head? hd hno hno'
  have hpaths : ending url.scheme (some authority) commonPath (tail ++ behind [""]) =
      { scheme := url.scheme, authority := some authority, path := commonPath (tail ++ ['/'])
        query := none, fragment := none } :=
    ending_eq (mt List.mem_append.1 (not_or.2 ⟨hno, by decide⟩))
      (mt List.mem_append.1 (not_or.2 ⟨hno', by decide⟩))
  have hdirectory : url.directory = directoryOf (webSegments tail) := by
    rw [hurl]
    exact congrArg directoryOf (pathSegments_eq _ _ _ _ _)
  refine ⟨_, hparse.trans (congrArg Except.ok hpaths), ?_⟩
  rw [hdirectory, directory, pathSegments_eq]
  exact directoryOf_webSegments_slash hhead hlast

end Url

end Wayfinder
