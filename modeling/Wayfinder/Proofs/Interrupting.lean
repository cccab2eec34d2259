import Mathlib.Data.List.Induction
import Wayfinder.Proofs.Framing

/-!
Saving that is interrupted between two steps. Main statement: at every such point the file at the
path of the kubeconfig is as before or holds the new text, unless the temporary file is the
kubeconfig itself and is emptied in place (`Store.between_whole_iff`). A path and the same path with
another ending lead to one file only if they are the same text (`Path.withEnding_eq_of_locate`), and
that is so for a kubeconfig whose name already ends in `.tmp`.
-/

set_option autoImplicit false
set_option relaxedAutoImplicit false

namespace Wayfinder

namespace Files

/-! ### The last name of a path -/

namespace Path

theorem names_ofList_append (front back : List Char) :
    names (String.ofList (front ++ '/' :: back)) =
      names (String.ofList front) ++ names (String.ofList back) := by
  simp only [names, Text.split, String.toList_ofList, Text.pieces_append, List.map_append,
    List.filter_append]

theorem names_ofList_of_not_mem {name : List Char} (h : '/' ∉ name) :
    names (String.ofList name) =
      if name = [] ∨ name = ['.'] then [] else [String.ofList name] := by
  have hempty : (String.ofList name == "") = decide (name = []) := by
    rw [Bool.eq_iff_iff, beq_iff_eq, decide_eq_true_iff, ← String.toList_inj,
      String.toList_ofList]
    rfl
  have hdot : (String.ofList name == ".") = decide (name = ['.']) := by
    rw [Bool.eq_iff_iff, beq_iff_eq, decide_eq_true_iff, ← String.toList_inj,
      String.toList_ofList]
    rfl
  simp only [names, Text.split, String.toList_ofList, Text.pieces_of_not_mem h, List.map_cons,
    List.map_nil, hempty, hdot, List.filter_cons, List.filter_nil]
  by_cases hname : name = [] ∨ name = ['.']
  · rcases hname with rfl | rfl <;> simp
  · obtain ⟨hsome, hother⟩ := not_or.1 hname
    simp [hsome, hother]

/-- Slashes and single dots at the end of a path add no name. -/
theorem names_dropIdle (l : List Char) :
    names (String.ofList (dropIdle l).reverse) = names (String.ofList l.reverse) := by
  fun_induction dropIdle l with
  | case1 rest ih =>
    rw [ih, List.reverse_cons, names_ofList_append, names_ofList_of_not_mem (List.not_mem_nil),
      if_pos (Or.inl rfl), List.append_nil]
  | case2 rest ih =>
    have hreverse : ('.' :: '/' :: rest).reverse = rest.reverse ++ '/' :: ['.'] := by simp
    rw [ih, hreverse, names_ofList_append, names_ofList_of_not_mem (show '/' ∉ ['.'] by decide),
      if_pos (Or.inr rfl), List.append_nil]
  | case3 l => rfl

/-- Nothing idle is left at the end. -/
theorem dropIdle_ne (l rest : List Char) :
    dropIdle l ≠ '/' :: rest ∧ dropIdle l ≠ '.' :: '/' :: rest := by
  fun_induction dropIdle l with
  | case1 _ ih => exact ih
  | case2 _ ih => exact ih
  | case3 l hslash hdot => exact ⟨hslash rest, hdot rest⟩

theorem dropIdle_isSuffix (l : List Char) : dropIdle l <:+ l := by
  fun_induction dropIdle l with
  | case1 rest ih => exact ih.trans (List.suffix_cons _ _)
  | case2 rest ih => exact ih.trans ((List.suffix_cons _ _).trans (List.suffix_cons _ _))
  | case3 l => exact List.suffix_rfl

/-- Only a path to a directory has anything idle at its end. -/
theorem dropIdle_of_not_endsInDirectory {path : String} (h : endsInDirectory path = false) :
    dropIdle path.toList.reverse = path.toList.reverse := by
  obtain ⟨hslash, hdot⟩ := Bool.or_eq_false_iff.1 h
  rw [dropIdle]
  · intro rest hrest
    rw [List.reverse_eq_iff] at hrest
    simp [endsInSlash, hrest] at hslash
  · intro rest hrest
    rw [List.reverse_eq_iff] at hrest
    rw [hrest, ← Bool.not_eq_true, List.isSuffixOf_iff_suffix] at hdot
    exact hdot ⟨rest.reverse, by simp⟩

/-- A text is what stands up to its last slash, and a name. -/
theorem exists_last (l : List Char) :
    ∃ front name, l = front ++ name ∧ '/' ∉ name ∧
      (front = [] ∨ ∃ rest, front = rest ++ ['/']) := by
  induction l using List.reverseRecOn with
  | nil => exact ⟨[], [], rfl, by simp, Or.inl rfl⟩
  | append_singleton l c ih =>
    by_cases hc : c = '/'
    · subst hc
      exact ⟨l ++ ['/'], [], by simp, by simp, Or.inr ⟨l, rfl⟩⟩
    · obtain ⟨front, name, rfl, hname, hfront⟩ := ih
      exact ⟨front, name ++ [c], by simp, by simp [hname, Ne.symm hc], hfront⟩

theorem names_front_append {front : List Char} (name : List Char)
    (hfront : front = [] ∨ ∃ rest, front = rest ++ ['/']) :
    names (String.ofList (front ++ name)) =
      names (String.ofList front) ++ names (String.ofList name) := by
  have hnone : names (String.ofList []) = [] := by decide
  rcases hfront with rfl | ⟨rest, rfl⟩
  · rw [hnone, List.nil_append, List.nil_append]
  · have hassoc : rest ++ ['/'] ++ name = rest ++ '/' :: name := by simp
    rw [hassoc, names_ofList_append, names_ofList_append, hnone, List.append_nil]

/-- A path with a last name is what stands before that name, the name, and something idle. -/
structure Ends (path : String) (front name idle : List Char) : Prop where
  toList_eq : path.toList = front ++ name ++ idle
  front_eq : front = [] ∨ ∃ rest, front = rest ++ ['/']
  not_mem : '/' ∉ name
  plain : ¬ (name = [] ∨ name = ['.'])
  names_eq : names path = names (String.ofList front) ++ [String.ofList name]

theorem ends_append {front name : List Char} (hfront : front = [] ∨ ∃ rest, front = rest ++ ['/'])
    (hname : '/' ∉ name) (hplain : ¬ (name = [] ∨ name = ['.'])) :
    Ends (String.ofList (front ++ name)) front name [] where
  toList_eq := by rw [String.toList_ofList, List.append_nil]
  front_eq := hfront
  not_mem := hname
  plain := hplain
  names_eq := by
    rw [names_front_append name hfront, names_ofList_of_not_mem hname, if_neg hplain]

/-- Whether a path begins at the root is seen before its last name. -/
theorem Ends.isAbsolute_eq {path : String} {front name idle : List Char}
    (h : Ends path front name idle) : isAbsolute path = (front.head? == some '/') := by
  rw [isAbsolute, h.toList_eq]
  cases front with
  | cons c rest => rfl
  | nil =>
    cases name with
    | nil => exact absurd (Or.inl rfl) h.plain
    | cons c rest =>
      have hc : c ≠ '/' := fun hc ↦ h.not_mem (hc ▸ List.mem_cons_self)
      simp [hc]

theorem Ends.ne_dot {path name : String} {front idle : List Char}
    (h : Ends path front name.toList idle) : name ≠ "." := by
  rintro rfl
  exact h.plain (Or.inr rfl)

theorem ne_up_of_fileName? {path name : String} (h : fileName? path = some name) :
    name ≠ ".." := by
  rw [fileName?] at h
  split at h
  · cases h
  · split_ifs at h with hup
    exact Option.some.inj h ▸ hup

theorem exists_ends {path name : String} (h : fileName? path = some name) :
    ∃ front idle, Ends path front name.toList idle ∧
      trimmed path = (front ++ name.toList).reverse ∧
      (endsInDirectory path = false → idle = []) := by
  obtain ⟨idle, hidle⟩ := dropIdle_isSuffix path.toList.reverse
  obtain ⟨front, last, hcore, hlast, hfront⟩ := exists_last (dropIdle path.toList.reverse).reverse
  have hnames : names path = names (String.ofList (front ++ last)) := by
    rw [← hcore, names_dropIdle, List.reverse_reverse, String.ofList_toList]
  have hsome : names path ≠ [] := by
    intro hnone
    simp [fileName?, hnone] at h
  rw [List.reverse_eq_iff] at hcore
  -- Something that is not idle comes last, so that it is a name.
  have hplain : ¬ (last = [] ∨ last = ['.']) := by
    rintro (rfl | rfl) <;> rcases hfront with rfl | ⟨rest, rfl⟩
    · exact hsome (hnames.trans (by decide))
    · exact (dropIdle_ne _ rest.reverse).1 (by rw [hcore]; simp)
    · exact hsome (hnames.trans (by decide))
    · exact (dropIdle_ne _ rest.reverse).2 (by rw [hcore]; simp)
  have hends := ends_append hfront hlast hplain
  rw [hends.names_eq] at hnames
  obtain rfl : String.ofList last = name := by
    rw [fileName?, hnames, List.getLast?_concat] at h
    simp only at h
    split at h
    · cases h
    · exact Option.some.inj h
  have hpath : path.toList = front ++ last ++ idle.reverse := by
    rw [← List.reverse_reverse path.toList, ← hidle, hcore]
    simp
  rw [String.toList_ofList]
  refine ⟨front, idle.reverse, ⟨hpath, hfront, hlast, hplain, hnames⟩, ?_, fun hopen ↦ ?_⟩
  · have hne : (front ++ last).reverse ≠ [] := by
      intro hnil
      exact hplain (Or.inl (List.append_eq_nil_iff.1 (List.reverse_eq_nil_iff.1 hnil)).2)
    rw [trimmed, hcore]
    split
    · contradiction
    · rfl
  · rw [dropIdle_of_not_endsInDirectory hopen, List.append_left_eq_self] at hidle
    rw [hidle, List.reverse_nil]

theorem mem_of_mem_stem {name : String} {c : Char} (h : c ∈ (stem name).toList) :
    c ∈ name.toList := by
  unfold stem at h
  split at h
  · exact h
  · next before hbefore =>
    split at h
    · exact h
    · rw [String.toList_ofList, List.mem_reverse] at h
      rw [← List.mem_reverse]
      exact (List.dropWhile_sublist _).subset (hbefore ▸ List.mem_cons_of_mem _ h)

/-- Another ending takes the place of the last name alone. -/
theorem exists_ends_withEnding {path name ending : String} (h : fileName? path = some name)
    (hending : '/' ∉ ending.toList) (hplain : ∃ c ∈ ending.toList, c ≠ '.') :
    ∃ front idle, Ends path front name.toList idle ∧
      (endsInDirectory path = false → idle = []) ∧
      withEnding path ending = String.ofList (front ++ (stem name ++ "." ++ ending).toList) ∧
      Ends (withEnding path ending) front (stem name ++ "." ++ ending).toList [] := by
  obtain ⟨front, idle, hends, htrimmed, hidle⟩ := exists_ends h
  have hpath : withEnding path ending =
      String.ofList (front ++ (stem name ++ "." ++ ending).toList) := by
    rw [withEnding, h, htrimmed, ← String.toList_inj]
    simp [List.reverse_append]
  refine ⟨front, idle, hends, hidle, hpath, ?_⟩
  rw [hpath]
  refine ends_append hends.front_eq ?_ ?_
  · simp only [String.toList_append, List.mem_append, not_or]
    exact ⟨⟨fun hslash ↦ hends.not_mem (mem_of_mem_stem hslash), by decide⟩, hending⟩
  · obtain ⟨c, hc, hdot⟩ := hplain
    have hmem : c ∈ (stem name ++ "." ++ ending).toList := by simp [hc]
    rintro (hnil | hsingle)
    · simp [hnil] at hmem
    · rw [hsingle, List.mem_singleton] at hmem
      exact hdot hmem

end Path

namespace Disk

variable {d : Disk} {path place : String}

theorem follow_append {start name : String} {names : List String}
    (h : d.follow start (names ++ [name]) = .ok place) :
    ∃ middle, d.follow start names = .ok middle ∧ d.follow middle [name] = .ok place := by
  induction names generalizing start with
  | nil => exact ⟨start, rfl, h⟩
  | cons first rest ih =>
    have hdirectory := directory_of_follow h
    rw [List.cons_append, follow_cons hdirectory] at h
    rw [follow_cons hdirectory]
    split_ifs at h ⊢ <;> exact ih h

/-- A name that is no dot leads to the place of that name. -/
theorem eq_of_follow_singleton {start name : String} (hself : name ≠ ".") (hup : name ≠ "..")
    (h : d.follow start [name] = .ok place) : place = start ++ "/" ++ name := by
  rw [follow_cons (directory_of_follow h), if_neg hself, if_neg hup] at h
  split at h
  · cases h
  · exact (Except.ok.inj h).symm

/-- A path that leads to something else than a directory ends in a name. -/
theorem follow_of_locate (h : d.locate path = .ok place)
    (hopen : d.entry? place ≠ some .directory) :
    Path.endsInDirectory path = false ∧
      d.follow (if Path.isAbsolute path then "" else d.workingDirectory) (Path.names path) =
        .ok place := by
  rw [locate] at h
  generalize (if Path.isAbsolute path then "" else d.workingDirectory) = start at h ⊢
  split_ifs at h with hempty hzero hdirectory
  · obtain ⟨middle, hmiddle, hself⟩ := follow_append h
    have hstands := directory_of_follow hself
    rw [follow_cons hstands, if_pos rfl] at hself
    obtain rfl := Except.ok.inj hself
    exact absurd hstands hopen
  · rw [List.append_nil] at h
    exact ⟨Bool.eq_false_iff.2 hdirectory, h⟩

/-- A path and the same path with another ending lead to one file only if they are the same. -/
theorem withEnding_eq_of_locate {ending : String} (hending : '/' ∉ ending.toList)
    (hplain : ∃ c ∈ ending.toList, c ≠ '.')
    (hother : d.locate (Path.withEnding path ending) = .ok place)
    (hplace : d.locate path = .ok place) (hopen : d.entry? place ≠ some .directory) :
    Path.withEnding path ending = path := by
  cases hname : Path.fileName? path with
  | none => rw [Path.withEnding, hname]
  | some name =>
    obtain ⟨front, idle, hends, hidle, hpath, hends'⟩ :=
      Path.exists_ends_withEnding hname hending hplain
    obtain ⟨hended, hfollow⟩ := follow_of_locate hplace hopen
    have hfollow' := (follow_of_locate hother hopen).2
    rw [hends.isAbsolute_eq, hends.names_eq] at hfollow
    rw [hends'.isAbsolute_eq, hends'.names_eq] at hfollow'
    obtain ⟨middle, hmiddle, hlast⟩ := follow_append hfollow
    obtain ⟨middle', hmiddle', hlast'⟩ := follow_append hfollow'
    obtain rfl := Except.ok.inj (hmiddle.symm.trans hmiddle')
    rw [String.ofList_toList] at hlast hlast'
    have hup : Path.stem name ++ "." ++ ending ≠ ".." := by
      intro hup
      obtain ⟨c, hc, hdot⟩ := hplain
      have hmem : c ∈ (Path.stem name ++ "." ++ ending).toList := by simp [hc]
      rw [hup] at hmem
      simp [hdot] at hmem
    have hsame : middle ++ "/" ++ name = middle ++ "/" ++ (Path.stem name ++ "." ++ ending) :=
      (eq_of_follow_singleton hends.ne_dot (Path.ne_up_of_fileName? hname) hlast).symm.trans
        (eq_of_follow_singleton hends'.ne_dot hup hlast')
    rw [hpath, ← (String.append_right_inj _).1 hsame, ← String.toList_inj, String.toList_ofList,
      hends.toList_eq, hidle hended, List.append_nil]

/-! ### Between the steps of a plan -/

variable {d' : Disk} {step : Step} {failure : IoFault → Failure} {first rest : List Planned}

theorem between_cons_ok {next : Disk} (h : d.take step = (next, none)) :
    d.between ({ step, failure } :: rest) = d :: next.between rest := by
  rw [between, h]

theorem between_cons_error {fault : IoFault} {next : Disk} (h : d.take step = (next, some fault)) :
    d.between ({ step, failure } :: rest) = [d, next] := by
  rw [between, h]

theorem self_mem_between (d : Disk) (plan : List Planned) : d ∈ d.between plan := by
  cases plan with
  | nil => exact List.mem_singleton_self d
  | cons planned rest =>
    rw [between]
    split <;> exact List.mem_cons_self

/-- A tree on the way of two plans is on the way of the first, or of the second where the first went
right. -/
theorem mem_between_append :
    d' ∈ d.between (first ++ rest) ↔ d' ∈ d.between first ∨
      ∃ next, d.after first = (next, .ok ()) ∧ d' ∈ next.between rest := by
  induction first generalizing d with
  | nil =>
    simp only [List.nil_append, between, after, List.mem_singleton, Prod.mk.injEq, and_true,
      exists_eq_left']
    refine ⟨Or.inr, ?_⟩
    rintro (rfl | h)
    · exact self_mem_between d' rest
    · exact h
  | cons planned more ih =>
    rw [List.cons_append, between, between, after]
    rcases d.take planned.step with ⟨next, _ | fault⟩
    · simp only [List.mem_cons, ih, or_assoc]
    · simp

/-- What every step of a plan does to a tree holds at each point on the way. -/
theorem of_mem_between (R : Disk → Disk → Prop) (hrefl : ∀ d, R d d)
    (htrans : ∀ d d' d'', R d d' → R d' d'' → R d d'') {plan : List Planned}
    (hsteps : ∀ planned ∈ plan, ∀ d : Disk, R d (d.take planned.step).1)
    (h : d' ∈ d.between plan) : R d d' := by
  induction plan generalizing d with
  | nil => exact List.mem_singleton.1 h ▸ hrefl d
  | cons planned rest ih =>
    have hstep := hsteps planned List.mem_cons_self d
    rw [between] at h
    rcases hnext : d.take planned.step with ⟨next, fault | _⟩
    · simp only [hnext, List.mem_cons] at h
      rw [hnext] at hstep
      rcases h with rfl | h
      · exact hrefl _
      · exact htrans _ _ _ hstep
          (ih (fun other hother ↦ hsteps other (List.mem_cons_of_mem _ hother)) h)
    · simp only [hnext, List.mem_cons, List.not_mem_nil, or_false] at h
      rw [hnext] at hstep
      rcases h with rfl | rfl
      · exact hrefl _
      · exact hstep

end Disk

end Files

namespace Store

open Files

variable {s : Store} {d d' : Disk} {bytes : ByteArray}

/-- What may be found after an interrupted save: the path leads where it led, and the file there is
as it was or holds the new octets. -/
structure Whole (s : Store) (bytes : ByteArray) (d d' : Disk) : Prop where
  leads : ∀ place, d.locate s.path = .ok place → d'.locate s.path = .ok place
  holds : ∀ place, d'.locate s.path = .ok place →
    d'.file? place = d.file? place ∨ d'.file? place = some bytes

/-- A save empties the kubeconfig itself: its temporary file has the same path and can be opened,
and something else than an empty file was there. -/
def Empties (s : Store) (d : Disk) : Prop :=
  s.temporaryPath = s.path ∧
    ∃ prepared place, d.after s.preparing = (prepared, .ok ()) ∧
      prepared.locate s.path = .ok place ∧ prepared.entry? place ≠ some .directory ∧
      d.file? place ≠ some ByteArray.empty

theorem temporaryPath_eq_of_locate {place : String}
    (htemporary : d.locate s.temporaryPath = .ok place) (hpath : d.locate s.path = .ok place)
    (hopen : d.entry? place ≠ some .directory) : s.temporaryPath = s.path :=
  Disk.withEnding_eq_of_locate (by decide) ⟨'t', by decide, by decide⟩ htemporary hpath hopen

theorem whole_of_keeps (h : Disk.Keeps d d') : s.Whole bytes d d' where
  leads _ hplace := Disk.locate_of_grows h.grows hplace
  holds place _ := Or.inl (h.file?_eq place)

theorem Whole.trans_keeps {prepared : Disk} (h' : s.Whole bytes prepared d')
    (h : Disk.Keeps d prepared) : s.Whole bytes d d' where
  leads place hplace := h'.leads place (Disk.locate_of_grows h.grows hplace)
  holds place hplace := h.file?_eq place ▸ h'.holds place hplace

/-- While the directory is made, what is there stays. -/
theorem keeps_of_mem_between_preparing (h : d' ∈ d.between s.preparing) : Disk.Keeps d d' := by
  refine Disk.of_mem_between Disk.Keeps Disk.Keeps.refl (fun _ _ _ ↦ Disk.Keeps.trans)
    (fun planned hplanned d ↦ ?_) h
  unfold preparing at hplanned
  split at hplanned
  · cases hplanned
  · split at hplanned
    · cases hplanned
    · obtain rfl := List.mem_singleton.1 hplanned
      exact Disk.keeps_makeDirectories _ _ d

theorem of_mem_between_replacing (h : d' ∈ d.between [s.replacing]) :
    d' = d ∨ d.rename s.temporaryPath s.path = .ok d' := by
  rw [replacing] at h
  cases hmoved : d.rename s.temporaryPath s.path with
  | ok moved =>
    have hstep : d.take (.rename s.temporaryPath s.path) = (moved, none) := by
      rw [Disk.take, hmoved, Disk.orElse]
    rw [Disk.between_cons_ok hstep, Disk.between, List.mem_pair] at h
    exact h.imp_right fun hmoved' ↦ congrArg Except.ok hmoved'.symm
  | error fault =>
    have hstep : d.take (.rename s.temporaryPath s.path) = (d, some fault) := by
      rw [Disk.take, hmoved, Disk.orElse]
    rw [Disk.between_cons_error hstep, List.mem_pair, or_self] at h
    exact Or.inl h

/-- From the opening of the temporary file on, that file is empty, then filled, then private, and
then it is moved. -/
theorem between_writing {place : String} (hplace : d.locate s.temporaryPath = .ok place)
    (hfree : d.entry? place ≠ some .directory) :
    d.between (s.writing bytes) =
      d :: d.put place (.file ByteArray.empty (d.openedMode place)) ::
        d.put place (.file bytes (d.openedMode place)) ::
        (d.put place (.file bytes privateMode)).between [s.replacing] := by
  rw [writing, Disk.between_cons_ok (Disk.take_truncate hplace hfree),
    Disk.between_cons_ok (Disk.take_fill hplace hfree),
    Disk.between_cons_ok (Disk.take_restrict hplace hfree)]

/-- If the temporary file can not be opened, nothing changes. -/
theorem of_mem_between_writing (h : d' ∈ d.between (s.writing bytes)) :
    d' = d ∨ ∃ place mode, d.locate s.temporaryPath = .ok place ∧
      d.entry? place ≠ some .directory ∧
      (d' = d.put place (.file ByteArray.empty mode) ∨ d' = d.put place (.file bytes mode) ∨
        d' = d.put place (.file bytes privateMode) ∨
        (d.put place (.file bytes privateMode)).rename s.temporaryPath s.path = .ok d') := by
  rcases Disk.take_truncate_cases d s.temporaryPath with ⟨fault, hwrong⟩ | ⟨place, hplace, hfree⟩
  · rw [writing, Disk.between_cons_error hwrong, List.mem_pair, or_self] at h
    exact Or.inl h
  · rw [between_writing hplace hfree, List.mem_cons, List.mem_cons, List.mem_cons] at h
    refine h.imp_right fun h ↦ ⟨place, d.openedMode place, hplace, hfree, ?_⟩
    exact h.imp_right (Or.imp_right of_mem_between_replacing)

/-- A file that is written at a place leaves the kubeconfig whole, if the path does not lead there
or nothing is lost by it. -/
theorem whole_put {place : String} {written : ByteArray} {mode : Nat}
    (hfree : d.entry? place ≠ some .directory)
    (h : (d.put place (.file written mode)).locate s.path = .ok place →
      d.file? place = some written ∨ written = bytes) :
    s.Whole bytes d (d.put place (.file written mode)) where
  leads target htarget := Disk.locate_of_grows (Disk.grows_put _ hfree) htarget
  holds target htarget := by
    have hroot := Disk.ne_root hfree
    by_cases hsame : place = target
    · subst hsame
      rw [Disk.file?_put_self hroot]
      exact (h htarget).imp Eq.symm (congrArg some)
    · exact Or.inl (Disk.file?_put _ hroot hsame)

theorem whole_of_rename {place : String} (hplace : d.locate s.temporaryPath = .ok place)
    (hfree : d.entry? place ≠ some .directory)
    (h : (d.put place (.file bytes privateMode)).rename s.temporaryPath s.path = .ok d') :
    s.Whole bytes d d' := by
  have hgrows := Disk.grows_put (.file bytes privateMode) hfree
  obtain ⟨first, last, moved, mode, hfirst, hlast, hfile, hopen, rfl⟩ := Disk.rename_ok h
  obtain rfl : place = first :=
    Except.ok.inj ((Disk.locate_of_grows hgrows hplace).symm.trans hfirst)
  rw [Disk.entry?_put_self _ _ (Disk.ne_root hfree)] at hfile
  cases hfile
  have hmove := Disk.grows_move (.file bytes privateMode) (by
    rw [Disk.entry?_put_self _ _ (Disk.ne_root hfree)]; simp) hopen
  refine ⟨fun target htarget ↦ Disk.locate_of_grows (hgrows.trans hmove) htarget,
    fun target htarget ↦ ?_⟩
  obtain rfl := Except.ok.inj ((Disk.locate_of_grows hmove hlast).symm.trans htarget)
  exact Or.inr (Disk.file?_put_self (Disk.ne_root hopen))

theorem whole_of_mem_between_writing (hlost : s.temporaryPath = s.path → ∀ place,
      d.locate s.path = .ok place → d.entry? place ≠ some .directory →
      d.file? place = some ByteArray.empty)
    (h : d' ∈ d.between (s.writing bytes)) : s.Whole bytes d d' := by
  rcases of_mem_between_writing h with rfl |
    ⟨place, mode, hplace, hfree, rfl | rfl | rfl | hmoved⟩
  · exact whole_of_keeps (Disk.Keeps.refl d')
  · refine whole_put hfree fun hpath ↦ Or.inl ?_
    have hsame := temporaryPath_eq_of_locate
      (Disk.locate_of_grows (Disk.grows_put _ hfree) hplace) hpath (by
        rw [Disk.entry?_put_self _ _ (Disk.ne_root hfree)]; simp)
    exact hlost hsame place (hsame ▸ hplace) hfree
  · exact whole_put hfree fun _ ↦ Or.inr rfl
  · exact whole_put hfree fun _ ↦ Or.inr rfl
  · exact whole_of_rename hplace hfree hmoved

/-- Where a save empties the kubeconfig, it is there without anything in it. -/
theorem exists_not_whole (h : s.Empties d) (hbytes : bytes ≠ ByteArray.empty) :
    ∃ d' ∈ d.between (s.plan bytes), ¬ s.Whole bytes d d' := by
  obtain ⟨hsame, prepared, place, hprepared, hplace, hfree, hlost⟩ := h
  refine ⟨prepared.put place (.file ByteArray.empty (prepared.openedMode place)), ?_,
    fun hwhole ↦ ?_⟩
  · rw [plan_eq, Disk.mem_between_append]
    refine Or.inr ⟨prepared, hprepared, ?_⟩
    rw [between_writing (hsame ▸ hplace) hfree]
    exact List.mem_cons_of_mem _ List.mem_cons_self
  · have hempty := hwhole.holds place (Disk.locate_of_grows (Disk.grows_put _ hfree) hplace)
    rw [Disk.file?_put_self (Disk.ne_root hfree)] at hempty
    rcases hempty with hempty | hempty
    · exact hlost hempty.symm
    · exact hbytes (Option.some.inj hempty).symm

theorem encode_render_ne_empty (config : Kubeconfig) :
    Text.encode config.render ≠ ByteArray.empty := by
  intro hempty
  have hdecode := Text.decode_encode config.render
  have hblank := config.render_not_blank
  rw [hempty] at hdecode
  rw [← Option.some.inj hdecode] at hblank
  exact absurd hblank (by decide)

/-- A save that is interrupted leaves the kubeconfig as it was or with the new text, unless it
empties the kubeconfig itself before it writes it. -/
theorem between_whole_iff (s : Store) (d : Disk) (config : Kubeconfig) :
    (∀ d' ∈ d.between (s.savePlan config), s.Whole (Text.encode config.render) d d') ↔
      ¬ s.Empties d := by
  refine ⟨fun h hempties ↦ ?_, fun h d' hd' ↦ ?_⟩
  · obtain ⟨d', hd', hlost⟩ := exists_not_whole hempties (encode_render_ne_empty config)
    exact hlost (h d' hd')
  · rw [savePlan, plan_eq, Disk.mem_between_append] at hd'
    rcases hd' with hd' | ⟨prepared, hprepared, hd'⟩
    · exact whole_of_keeps (keeps_of_mem_between_preparing hd')
    · have hkeeps := keeps_preparing s d
      rw [hprepared] at hkeeps
      refine (whole_of_mem_between_writing ?_ hd').trans_keeps hkeeps
      intro hsame place hplace hfree
      by_contra hlost
      rw [hkeeps.file?_eq] at hlost
      exact h ⟨hsame, prepared, place, hprepared, hplace, hfree, hlost⟩

/-- A kubeconfig whose name ends as that of a temporary file does. -/
def clashing : Store where
  path := "config.tmp"

/-- A tree with that kubeconfig. -/
def clashingDisk : Disk where
  entries := NameMap.ofList [("/config.tmp", .file (Text.encode "kind: Config\n") privateMode)]

/-- Such a kubeconfig is emptied before it is written. -/
theorem clashing_not_whole :
    ¬ ∀ d' ∈ clashingDisk.between (clashing.savePlan {}),
      clashing.Whole (Text.encode ({} : Kubeconfig).render) clashingDisk d' := by
  have hfile : clashingDisk.entry? "/config.tmp" =
      some (.file (Text.encode "kind: Config\n") privateMode) := rfl
  have hempties : clashing.Empties clashingDisk :=
    ⟨by decide, clashingDisk, "/config.tmp", rfl, rfl, by simp [hfile], by decide⟩
  obtain ⟨d', hd', hlost⟩ := exists_not_whole hempties (encode_render_ne_empty {})
  exact fun hwhole ↦ hlost (hwhole d' hd')

end Store

end Wayfinder
