import Wayfinder.Proofs.Interrupting

/-!
The ways in which a plan may end. A step goes wrong because of what the tree is like, or because
something outside the tree breaks it off, a full disk or a denied access, and then part of it may
have been done (`Disk.Breaks`). A plan ends with its last step or with the first step that goes
wrong in either way (`Disk.Ends`); what the steps themselves make of a tree is one such end
(`Disk.ends_after`), and so is every tree between two steps (`Disk.exists_ends_of_mem_between`).

Main statement: a save ends with nothing but directories made, or with the temporary file opened,
and then that file holds some of the first octets with the permission bits it was opened with, or
all of them as a private file, or it has been moved to the kubeconfig (`Store.ends_plan`). The part
of this that holds of any file that is opened and filled is `Disk.Ends.of_opening`.
-/

set_option autoImplicit false
set_option relaxedAutoImplicit false

namespace Wayfinder

namespace Files

namespace Disk

/-- What a step may leave behind that something outside the tree breaks off: the tree as it was, or
some of the directories, or the first of the octets. -/
inductive Breaks (d : Disk) : Step → Disk → Prop
  | undone (step : Step) : Breaks d step d
  | directories {above path : String} (h : Path.Above above path) :
      Breaks d (.makeDirectories path) (d.take (.makeDirectories above)).1
  | part {path : String} {first : ByteArray} (rest : ByteArray) {d' : Disk}
      (h : d.fill path first = .ok d') : Breaks d (.fill path (first ++ rest)) d'

/-- The trees with which a plan may end, and what comes of it. -/
inductive Ends : Disk → List Planned → Disk → Except Failure Unit → Prop
  | done (d : Disk) : Ends d [] d (.ok ())
  | taken {d next d' : Disk} {planned : Planned} {rest : List Planned} {r : Except Failure Unit}
      (hstep : d.take planned.step = (next, none)) (hrest : Ends next rest d' r) :
      Ends d (planned :: rest) d' r
  | wrong {d next : Disk} {planned : Planned} {rest : List Planned} {fault : IoFault}
      (hstep : d.take planned.step = (next, some fault)) :
      Ends d (planned :: rest) next (.error (planned.failure fault))
  | broken {d next : Disk} {planned : Planned} {rest : List Planned} (fault : IoFault)
      (hstep : d.Breaks planned.step next) :
      Ends d (planned :: rest) next (.error (planned.failure fault))

variable {d d' next : Disk} {plan first rest : List Planned} {r : Except Failure Unit}

/-- A plan that nothing breaks off ends as its steps say. -/
theorem ends_after (d : Disk) (plan : List Planned) :
    d.Ends plan (d.after plan).1 (d.after plan).2 := by
  induction plan generalizing d with
  | nil => exact .done d
  | cons planned rest ih =>
    rw [after]
    rcases hstep : d.take planned.step with ⟨next, _ | fault⟩
    · exact .taken hstep (ih next)
    · exact .wrong hstep

theorem ends_ok_iff : d.Ends plan d' (.ok ()) ↔ d.after plan = (d', .ok ()) := by
  constructor
  · intro h
    generalize hr : (.ok () : Except Failure Unit) = r at h
    induction h with
    | done d => rfl
    | taken hstep _ ih =>
      rw [after, hstep]
      exact ih hr
    | wrong _ => cases hr
    | broken _ _ => cases hr
  · intro h
    have hends := ends_after d plan
    rwa [h] at hends

/-- A plan may be broken off at every point between its steps. -/
theorem exists_ends_of_mem_between (h : d' ∈ d.between plan) : ∃ r, d.Ends plan d' r := by
  induction plan generalizing d with
  | nil => exact ⟨.ok (), List.mem_singleton.1 h ▸ .done d⟩
  | cons planned rest ih =>
    rw [between] at h
    rcases hstep : d.take planned.step with ⟨next, _ | fault⟩
    · simp only [hstep, List.mem_cons] at h
      rcases h with rfl | h
      · exact ⟨_, .broken .denied (.undone _)⟩
      · obtain ⟨r, hr⟩ := ih h
        exact ⟨r, .taken hstep hr⟩
    · simp only [hstep, List.mem_cons, List.not_mem_nil, or_false] at h
      rcases h with rfl | rfl
      · exact ⟨_, .broken .denied (.undone _)⟩
      · exact ⟨_, .wrong hstep⟩

/-- A plan goes on behind a step that goes right, unless something breaks that step off. -/
theorem Ends.of_cons_ok {planned : Planned} (hstep : d.take planned.step = (next, none))
    (h : d.Ends (planned :: rest) d' r) :
    next.Ends rest d' r ∨ (∃ failure, r = .error failure) ∧ d.Breaks planned.step d' := by
  cases h with
  | taken htaken hrest =>
    rw [hstep] at htaken
    cases htaken
    exact Or.inl hrest
  | wrong hwrong =>
    rw [hstep] at hwrong
    cases hwrong
  | broken fault hbreaks => exact Or.inr ⟨⟨_, rfl⟩, hbreaks⟩

theorem Ends.of_cons_error {planned : Planned} {fault : IoFault}
    (hstep : d.take planned.step = (next, some fault)) (h : d.Ends (planned :: rest) d' r) :
    (∃ failure, r = .error failure) ∧ (d' = next ∨ d.Breaks planned.step d') := by
  cases h with
  | taken htaken _ =>
    rw [hstep] at htaken
    cases htaken
  | wrong hwrong =>
    rw [hstep] at hwrong
    cases hwrong
    exact ⟨⟨_, rfl⟩, Or.inl rfl⟩
  | broken fault hbreaks => exact ⟨⟨_, rfl⟩, Or.inr hbreaks⟩

theorem Ends.of_append (h : d.Ends (first ++ rest) d' r) :
    (∃ failure, r = .error failure ∧ d.Ends first d' r) ∨
      ∃ next, d.after first = (next, .ok ()) ∧ next.Ends rest d' r := by
  induction first generalizing d with
  | nil => exact Or.inr ⟨d, rfl, h⟩
  | cons planned more ih =>
    cases h with
    | taken hstep hrest =>
      rcases ih hrest with ⟨failure, rfl, hfirst⟩ | ⟨next, hafter, hnext⟩
      · exact Or.inl ⟨failure, rfl, .taken hstep hfirst⟩
      · exact Or.inr ⟨next, by rw [after, hstep]; exact hafter, hnext⟩
    | wrong hstep => exact Or.inl ⟨_, rfl, .wrong hstep⟩
    | broken fault hstep => exact Or.inl ⟨_, rfl, .broken fault hstep⟩

theorem Ends.append (hfirst : d.after first = (next, .ok ())) (h : next.Ends rest d' r) :
    d.Ends (first ++ rest) d' r := by
  induction first generalizing d with
  | nil =>
    cases hfirst
    exact h
  | cons planned more ih =>
    rw [after] at hfirst
    rcases hstep : d.take planned.step with ⟨middle, _ | fault⟩
    · rw [hstep] at hfirst
      exact .taken hstep (ih hfirst)
    · simp [hstep] at hfirst

/-- A plan that ends wrong does so whatever was to follow. -/
theorem Ends.append_error {failure : Failure} (h : d.Ends first d' (.error failure)) :
    d.Ends (first ++ rest) d' (.error failure) := by
  generalize hr : (.error failure : Except Failure Unit) = r at h
  induction h with
  | done d => cases hr
  | taken hstep _ ih => exact .taken hstep (ih hr)
  | wrong hstep => exact .wrong hstep
  | broken fault hstep => exact .broken fault hstep

/-- What every step of a plan does to a tree, also where it is broken off, holds at every end. -/
theorem of_ends (R : Disk → Disk → Prop) (hrefl : ∀ d, R d d)
    (htrans : ∀ d d' d'', R d d' → R d' d'' → R d d'')
    (hsteps : ∀ planned ∈ plan, ∀ d : Disk, R d (d.take planned.step).1)
    (hbreaks : ∀ planned ∈ plan, ∀ d d' : Disk, d.Breaks planned.step d' → R d d')
    (h : d.Ends plan d' r) : R d d' := by
  induction h with
  | done d => exact hrefl d
  | @taken d next d' planned rest r hstep _ ih =>
    have hfirst := hsteps planned List.mem_cons_self d
    rw [hstep] at hfirst
    exact htrans _ _ _ hfirst
      (ih (fun other hother ↦ hsteps other (List.mem_cons_of_mem _ hother))
        fun other hother ↦ hbreaks other (List.mem_cons_of_mem _ hother))
  | @wrong d next planned rest fault hstep =>
    have hfirst := hsteps planned List.mem_cons_self d
    rwa [hstep] at hfirst
  | @broken d next planned rest fault hstep => exact hbreaks planned List.mem_cons_self d next hstep

/-- No step takes a directory away, also where it is broken off. -/
theorem Breaks.grows {step : Step} (h : d.Breaks step d') : Grows d d' := by
  cases h with
  | undone => exact (Keeps.refl d).grows
  | directories => exact grows_take d _
  | part rest h =>
    obtain ⟨place, old, mode, -, hfile, rfl⟩ := fill_ok h
    exact grows_put _ (by simp [hfile])

/-- A step that is broken off leaves the file at a place to which none of its paths leads. -/
theorem Breaks.file?_eq {step : Step} {place : String} (h : d.Breaks step d')
    (hpaths : ∀ path ∈ step.touched, Files.Path.Avoids path place) :
    d'.file? place = d.file? place := by
  cases h with
  | undone => rfl
  | directories => exact (keeps_makeDirectories _ _ d).file?_eq place
  | part rest h =>
    obtain ⟨other, old, mode, hother, hfile, rfl⟩ := fill_ok h
    have hfree : d.entry? other ≠ some .directory := by simp [hfile]
    exact file?_put _ (ne_root hfree) (hpaths _ (List.mem_singleton_self _) d other hother)

theorem Ends.grows (h : d.Ends plan d' r) : Grows d d' :=
  of_ends Grows (fun d ↦ (Keeps.refl d).grows) (fun _ _ _ ↦ Grows.trans)
    (fun planned _ d ↦ grows_take d planned.step) (fun _ _ _ _ ↦ Breaks.grows) h

/-- A plan leaves the file at a place to which none of its paths leads, wherever it ends. -/
theorem Ends.file?_eq {place : String} (h : d.Ends plan d' r)
    (hpaths : ∀ planned ∈ plan, ∀ path ∈ planned.step.touched, Files.Path.Avoids path place) :
    d'.file? place = d.file? place :=
  of_ends (fun d d' ↦ d'.file? place = d.file? place) (fun _ ↦ rfl)
    (fun _ _ _ hfirst hlast ↦ hlast.trans hfirst)
    (fun planned hplanned d ↦ file?_take d planned.step (hpaths planned hplanned))
    (fun planned hplanned _ _ hbreaks ↦ hbreaks.file?_eq (hpaths planned hplanned)) h

/-! ### Directories -/

/-- A tree has grown by directories above a path, or at it. -/
structure Spreads (path : String) (d d' : Disk) : Prop extends Keeps d d' where
  above : ∀ place, d'.entry? place ≠ d.entry? place →
    ∃ above, Path.Above above path ∧ d'.locate above = .ok place

variable {path other place : String}

theorem Spreads.refl (path : String) (d : Disk) : Spreads path d d :=
  ⟨Keeps.refl d, fun _ h ↦ absurd rfl h⟩

theorem Spreads.trans (h : Spreads path d next) (h' : Spreads path next d') :
    Spreads path d d' := by
  refine ⟨h.toKeeps.trans h'.toKeeps, fun place hplace ↦ ?_⟩
  by_cases hlast : d'.entry? place = next.entry? place
  · obtain ⟨above, habove, hlocate⟩ := h.above place (hlast ▸ hplace)
    exact ⟨above, habove, locate_of_grows h'.toKeeps.grows hlocate⟩
  · exact h'.above place hlast

theorem Spreads.of_above (h : Spreads other d d') (hpath : Path.Above other path) :
    Spreads path d d' := by
  refine ⟨h.toKeeps, fun place hplace ↦ ?_⟩
  obtain ⟨above, habove, hlocate⟩ := h.above place hplace
  exact ⟨above, habove.trans hpath, hlocate⟩

/-- What is new there is a directory. -/
theorem Spreads.directory (h : Spreads path d d') (hplace : d'.entry? place ≠ d.entry? place) :
    d.entry? place = none ∧ d'.entry? place = some .directory := by
  have hnone : d.entry? place = none := by
    cases hentry : d.entry? place with
    | none => rfl
    | some entry => exact absurd (by rw [hentry, h.entry place entry hentry]) hplace
  refine ⟨hnone, ?_⟩
  cases hentry : d'.entry? place with
  | none => exact absurd (hentry.trans hnone.symm) hplace
  | some entry =>
    cases entry with
    | directory => rfl
    | file bytes mode => simp [h.file place bytes mode hentry] at hnone

theorem spreads_makeDirectory (h : d.makeDirectory path = .ok d') : Spreads path d d' := by
  have hkeeps := keeps_makeDirectory h
  obtain ⟨made, hmade, hentry, rfl⟩ := makeDirectory_ok h
  have hnone : d.entry? made ≠ some .directory := by simp [hentry]
  refine ⟨hkeeps, fun place hplace ↦ ⟨path, Relation.ReflTransGen.refl, ?_⟩⟩
  rw [entry?_put d made place .directory (ne_root hnone)] at hplace
  have hsame : made = place := by
    by_contra hne
    exact hplace (if_neg hne)
  exact hsame ▸ locate_of_grows hkeeps.grows hmade

theorem spreads_take (path : String) (d : Disk) :
    Spreads path d (d.take (.makeDirectories path)).1 :=
  of_makeDirectories (Spreads path) (Spreads.refl path) (fun _ _ _ ↦ Spreads.trans) _ path
    (fun _ habove _ _ hmade ↦ (spreads_makeDirectory hmade).of_above habove) d

/-- Making directories leaves such a tree, however it ends. -/
theorem Ends.spreads {planned : Planned} (h : d.Ends [planned] d' r)
    (hstep : planned.step = .makeDirectories path) : Spreads path d d' := by
  have htake := spreads_take path d
  cases h with
  | taken htaken hrest =>
    cases hrest
    rw [hstep] at htaken
    rwa [htaken] at htake
  | wrong hwrong =>
    rw [hstep] at hwrong
    rwa [hwrong] at htake
  | broken fault hbreaks =>
    rw [hstep] at hbreaks
    cases hbreaks with
    | undone => exact Spreads.refl path d
    | directories habove => exact (spreads_take _ d).of_above habove

/-! ### A file that is written -/

/-- A file that takes the place of a file, or of nothing, makes no directory. -/
theorem grows_of_put_file {bytes : ByteArray} {mode : Nat} (hroot : place ≠ "") :
    Grows (d.put place (.file bytes mode)) d := by
  refine ⟨rfl, fun other hother ↦ ?_⟩
  rw [entry?_put d place other _ hroot] at hother
  split at hother
  · cases hother
  · exact hother

theorem without_put (d : Disk) (place : String) (entry : Entry) :
    (d.put place entry).without place = d.without place := by
  have hentries : (d.entries.insert place entry).erase place = d.entries.erase place := by
    refine NameMap.ext_get? fun other ↦ ?_
    rw [NameMap.get?_erase, NameMap.get?_erase, NameMap.get?_insert]
    split <;> rfl
  simp only [put, without, hentries]

/-- The steps that open a file and fill it. -/
def opening (path : String) (bytes : ByteArray) (failure : IoFault → Failure) : List Planned :=
  [{ step := .truncate path, failure }, { step := .fill path bytes, failure }]

variable {bytes part : ByteArray} {failure : IoFault → Failure}

/-- A file that is opened and filled is left alone before it is opened. After that it holds some of
the first octets when the plan ends wrong, or all of them, and the plan goes on. -/
theorem Ends.of_opening (h : d.Ends (opening path bytes failure ++ rest) d' r) :
    (∃ failure, r = .error failure) ∧ d' = d ∨
      ∃ place, d.locate path = .ok place ∧ d.entry? place ≠ some .directory ∧
        ((∃ failure part more, r = .error failure ∧ part ++ more = bytes ∧
            d' = d.put place (.file part (d.openedMode place))) ∨
          (d.put place (.file bytes (d.openedMode place))).Ends rest d' r) := by
  rcases take_truncate_cases d path with ⟨fault, hwrong⟩ | ⟨place, hplace, hfree⟩
  · obtain ⟨hfailure, rfl | hbreaks⟩ := h.of_cons_error hwrong
    · exact Or.inl ⟨hfailure, rfl⟩
    · cases hbreaks
      exact Or.inl ⟨hfailure, rfl⟩
  · -- One step after another goes right, or is broken off.
    rcases h.of_cons_ok (take_truncate hplace hfree) with h | ⟨hfailure, hbreaks⟩
    · refine Or.inr ⟨place, hplace, hfree, ?_⟩
      rcases h.of_cons_ok (take_fill hplace hfree) with h | ⟨⟨failure, rfl⟩, hbreaks⟩
      · exact Or.inr h
      · refine Or.inl ⟨failure, ?_⟩
        generalize hstep : Step.fill path bytes = step at hbreaks
        cases hbreaks with
        | undone => exact ⟨_, bytes, rfl, ByteArray.empty_append, rfl⟩
        | directories => cases hstep
        | @part path part more _ hpart =>
          cases hstep
          rw [Except.ok.inj (hpart.symm.trans (fill_put hplace hfree))]
          exact ⟨part, more, rfl, rfl, rfl⟩
    · cases hbreaks
      exact Or.inl ⟨hfailure, rfl⟩

/-- Every first part of the octets may be all that is left in a file that is opened and filled. -/
theorem ends_opening {more : ByteArray} (hbytes : part ++ more = bytes)
    (hplace : d.locate path = .ok place) (hfree : d.entry? place ≠ some .directory) :
    ∃ fault, d.Ends (opening path bytes failure ++ rest)
      (d.put place (.file part (d.openedMode place))) (.error fault) := by
  subst hbytes
  exact ⟨_, .taken (take_truncate hplace hfree)
    (.broken .denied (.part more (fill_put hplace hfree)))⟩

end Disk

end Files

/-! ### A save -/

namespace Store

open Files

variable {s : Store} {d d' prepared : Disk} {bytes : ByteArray} {place : String}
  {r : Except Failure Unit}

/-- What may be left when the temporary file has been opened: that file with the first of the octets
and the permission bits that it was opened with, or with all of them and private, or the kubeconfig
instead of it. -/
inductive Leaves (s : Store) (bytes : ByteArray) (prepared : Disk) (place : String) :
    Disk → Except Failure Unit → Prop
  | filling (first rest : ByteArray) (failure : Failure) (h : first ++ rest = bytes) :
      Leaves s bytes prepared place
        (prepared.put place (.file first (prepared.openedMode place))) (.error failure)
  | closed (failure : Failure) :
      Leaves s bytes prepared place (prepared.put place (.file bytes privateMode)) (.error failure)
  | moved {target : String} (htarget : prepared.locate s.path = .ok target)
      (hfree : prepared.entry? target ≠ some .directory) :
      Leaves s bytes prepared place
        ((prepared.without place).put target (.file bytes privateMode)) (.ok ())

/-- Directories stay where they are while the temporary file is written and moved. -/
theorem Leaves.grows (h : s.Leaves bytes prepared place d' r)
    (hfree : prepared.entry? place ≠ some .directory) : Disk.Grows prepared d' := by
  cases h with
  | filling => exact Disk.grows_put _ hfree
  | closed => exact Disk.grows_put _ hfree
  | moved _ hopen => exact Disk.grows_move _ hfree hopen

theorem spreads_of_ends_preparing (h : d.Ends s.preparing d' r) : Disk.Spreads s.path d d' := by
  unfold preparing at h
  cases hparent : Path.parent? s.path with
  | none =>
    rw [hparent] at h
    cases h
    exact Disk.Spreads.refl s.path d
  | some parent =>
    simp only [hparent] at h
    split at h
    · cases h
      exact Disk.Spreads.refl s.path d
    · exact (h.spreads rfl).of_above (Relation.ReflTransGen.single hparent)

/-- A temporary file that is moved stands where the kubeconfig did. -/
theorem leaves_of_rename (hplace : d.locate s.temporaryPath = .ok place)
    (hfree : d.entry? place ≠ some .directory)
    (h : (d.put place (.file bytes privateMode)).rename s.temporaryPath s.path = .ok d') :
    s.Leaves bytes d place d' (.ok ()) := by
  have hroot := Disk.ne_root hfree
  obtain ⟨first, target, moved, mode, hfirst, htarget, hfile, hopen, rfl⟩ := Disk.rename_ok h
  obtain rfl : place = first :=
    Except.ok.inj ((Disk.locate_of_grows (Disk.grows_put _ hfree) hplace).symm.trans hfirst)
  rw [Disk.entry?_put_self _ _ hroot] at hfile
  cases hfile
  rw [Disk.without_put]
  refine .moved (Disk.locate_of_grows (Disk.grows_of_put_file hroot) htarget) fun hdirectory ↦ ?_
  exact hopen ((Disk.grows_put _ hfree).directory target hdirectory)

theorem leaves_of_ends_replacing (hplace : d.locate s.temporaryPath = .ok place)
    (hfree : d.entry? place ≠ some .directory)
    (h : (d.put place (.file bytes privateMode)).Ends [s.replacing] d' r) :
    s.Leaves bytes d place d' r := by
  have htake : ∀ d : Disk, d.take s.replacing.step = d.orElse (d.rename s.temporaryPath s.path) :=
    fun _ ↦ rfl
  cases hmoved : (d.put place (.file bytes privateMode)).rename s.temporaryPath s.path with
  | ok moved =>
    rcases h.of_cons_ok (by rw [htake, hmoved, Disk.orElse]) with hdone | ⟨⟨failure, rfl⟩, hbreaks⟩
    · cases hdone
      exact leaves_of_rename hplace hfree hmoved
    · rw [replacing] at hbreaks
      cases hbreaks
      exact .closed failure
  | error fault =>
    obtain ⟨⟨failure, rfl⟩, rfl | hbreaks⟩ :=
      h.of_cons_error (by rw [htake, hmoved, Disk.orElse])
    · exact .closed failure
    · rw [replacing] at hbreaks
      cases hbreaks
      exact .closed failure

/-- From the opening of the temporary file on, a save leaves something of it behind; if it can not
be opened, nothing changes. -/
theorem leaves_of_ends_writing (h : d.Ends (s.writing bytes) d' r) :
    (∃ failure, r = .error failure) ∧ d' = d ∨
      ∃ place, d.locate s.temporaryPath = .ok place ∧ d.entry? place ≠ some .directory ∧
        s.Leaves bytes d place d' r := by
  rcases Disk.Ends.of_opening h with hclosed | ⟨place, hplace, hfree, hopen⟩
  · exact Or.inl hclosed
  · refine Or.inr ⟨place, hplace, hfree, ?_⟩
    rcases hopen with ⟨failure, part, more, rfl, hbytes, rfl⟩ | h
    · exact .filling part more failure hbytes
    · rcases h.of_cons_ok (Disk.take_restrict hplace hfree) with h | ⟨⟨failure, rfl⟩, hbreaks⟩
      · exact leaves_of_ends_replacing hplace hfree h
      · cases hbreaks
        exact .filling bytes ByteArray.empty failure ByteArray.append_empty

/-- A save ends while its directory is made, or before its temporary file is opened, or leaves
something of that file. -/
theorem ends_cases (h : d.Ends (s.plan bytes) d' r) :
    (∃ failure, r = .error failure) ∧ (∃ r', d.Ends s.preparing d' r') ∨
      ∃ prepared place, d.after s.preparing = (prepared, .ok ()) ∧
        prepared.locate s.temporaryPath = .ok place ∧ prepared.entry? place ≠ some .directory ∧
        s.Leaves bytes prepared place d' r := by
  rw [plan_eq] at h
  rcases h.of_append with ⟨failure, rfl, hprepared⟩ | ⟨prepared, hprepared, hwriting⟩
  · exact Or.inl ⟨⟨failure, rfl⟩, _, hprepared⟩
  · rcases leaves_of_ends_writing hwriting with ⟨hfailure, rfl⟩ | ⟨place, hplace, hfree, hleaves⟩
    · exact Or.inl ⟨hfailure, _, Disk.ends_ok_iff.2 hprepared⟩
    · exact Or.inr ⟨prepared, place, hprepared, hplace, hfree, hleaves⟩

/-- The ends of a save. -/
theorem ends_plan (h : d.Ends (s.plan bytes) d' r) :
    (∃ failure, r = .error failure) ∧ Disk.Spreads s.path d d' ∨
      ∃ prepared place, Disk.Spreads s.path d prepared ∧ d.after s.preparing = (prepared, .ok ()) ∧
        prepared.locate s.temporaryPath = .ok place ∧ prepared.entry? place ≠ some .directory ∧
        s.Leaves bytes prepared place d' r := by
  rcases ends_cases h with ⟨hfailure, r', hprepared⟩ |
    ⟨prepared, place, hprepared, hplace, hfree, hleaves⟩
  · exact Or.inl ⟨hfailure, spreads_of_ends_preparing hprepared⟩
  · exact Or.inr ⟨prepared, place, spreads_of_ends_preparing (Disk.ends_ok_iff.2 hprepared),
      hprepared, hplace, hfree, hleaves⟩

/-- Every first part of the octets may be all that is left in the temporary file. -/
theorem ends_filling {first rest : ByteArray} (hbytes : first ++ rest = bytes)
    (hprepared : d.after s.preparing = (prepared, .ok ()))
    (hplace : prepared.locate s.temporaryPath = .ok place)
    (hfree : prepared.entry? place ≠ some .directory) :
    ∃ failure, d.Ends (s.plan bytes)
      (prepared.put place (.file first (prepared.openedMode place))) (.error failure) := by
  obtain ⟨failure, hends⟩ := Disk.ends_opening hbytes hplace hfree
  exact ⟨failure, .append hprepared hends⟩

end Store

end Wayfinder
