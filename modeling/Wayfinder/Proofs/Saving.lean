import Mathlib.Logic.Relation
import Wayfinder.Kubeconfig.Store
import Wayfinder.Proofs.Relabelling

/-!
What saving does to the file of a kubeconfig. Main statements: after a save that goes right the file
holds what was saved (`read_of_plan_ok`), and a save that goes wrong leaves a file that is there as
it was (`look_of_plan_error`). A path is followed through directories only, so that a tree in which
the same directories stand leads to the same place (`locate_of_grows`).
-/

set_option autoImplicit false
set_option relaxedAutoImplicit false

namespace Wayfinder.Files

/-- The first path is the second without some names at its end. -/
def Path.Above : String → String → Prop :=
  Relation.ReflTransGen fun above path ↦ Path.parent? path = some above

namespace Disk

variable {d d' : Disk} {path place : String}

/-- The tree after the steps of a plan up to the first that goes wrong, and what came of it. -/
def after (d : Disk) : List Planned → Disk × Except Failure Unit
  | [] => (d, .ok ())
  | planned :: rest =>
    match d.take planned.step with
    | (next, some fault) => (next, .error (planned.failure fault))
    | (next, none) => next.after rest

/-- Every directory of the first tree stands in the second. -/
structure Grows (d d' : Disk) : Prop where
  workingDirectory : d'.workingDirectory = d.workingDirectory
  directory : ∀ place, d.entry? place = some .directory → d'.entry? place = some .directory

theorem Grows.trans {first middle last : Disk} (h : Grows first middle) (h' : Grows middle last) :
    Grows first last :=
  ⟨h'.workingDirectory.trans h.workingDirectory, fun place hplace ↦
    h'.directory place (h.directory place hplace)⟩

theorem follow_cons {start name : String} {rest : List String}
    (h : d.entry? start = some .directory) :
    d.follow start (name :: rest) =
      if name = "." then d.follow start rest
      else if name = ".." then d.follow (above start) rest
      else if longestName < name.utf8ByteSize then .error .nameTooLong
      else d.follow (start ++ "/" ++ name) rest := by
  rw [follow, h]

theorem directory_of_follow {start name : String} {rest : List String}
    (h : d.follow start (name :: rest) = .ok place) : d.entry? start = some .directory := by
  rw [follow] at h
  cases hentry : d.entry? start with
  | none => simp [hentry] at h
  | some entry =>
    cases entry with
    | file bytes mode => simp [hentry] at h
    | directory => rfl

theorem follow_of_grows (h : Grows d d') {names : List String} {start : String}
    (hplace : d.follow start names = .ok place) : d'.follow start names = .ok place := by
  induction names generalizing start with
  | nil => exact hplace
  | cons name rest ih =>
    have hdirectory := directory_of_follow hplace
    rw [follow_cons hdirectory] at hplace
    rw [follow_cons (h.directory start hdirectory)]
    by_cases hself : name = "."
    · rw [if_pos hself] at hplace ⊢
      exact ih hplace
    · rw [if_neg hself] at hplace ⊢
      by_cases hup : name = ".."
      · rw [if_pos hup] at hplace ⊢
        exact ih hplace
      · rw [if_neg hup] at hplace ⊢
        by_cases hlong : longestName < name.utf8ByteSize
        · rw [if_pos hlong] at hplace
          cases hplace
        · rw [if_neg hlong] at hplace ⊢
          exact ih hplace

theorem locate_of_grows (h : Grows d d') (hplace : d.locate path = .ok place) :
    d'.locate path = .ok place := by
  unfold locate at hplace ⊢
  split at hplace
  · cases hplace
  · next hpath =>
    split at hplace
    · cases hplace
    · next hzero =>
      rw [if_neg hpath, if_neg hzero, h.workingDirectory]
      exact follow_of_grows h hplace

theorem entry?_put (d : Disk) (place other : String) (entry : Entry) (hplace : place ≠ "") :
    entry? (d.put place entry) other = if place = other then some entry else d.entry? other := by
  unfold entry? put
  by_cases hother : other.isEmpty
  · have hne : place ≠ other := by
      rintro rfl
      exact hplace (String.isEmpty_iff.1 hother)
    rw [if_pos hother, if_neg hne, if_pos hother]
  · simp only [hother, if_false, NameMap.get?_insert, Bool.false_eq_true]

theorem entry?_put_self (d : Disk) (entry : Entry) (hplace : place ≠ "") :
    entry? (d.put place entry) place = some entry :=
  (entry?_put d place place entry hplace).trans (if_pos rfl)

/-- The root is a directory, so whatever else stands at a place stands at another one. -/
theorem ne_root (h : d.entry? place ≠ some .directory) : place ≠ "" := by
  rintro rfl
  exact h rfl

theorem grows_put (entry : Entry) (h : d.entry? place ≠ some .directory) :
    Grows d (d.put place entry) := by
  refine ⟨rfl, fun other hother ↦ ?_⟩
  rw [entry?_put d place other entry (ne_root h), if_neg, hother]
  rintro rfl
  exact h hother

theorem look_eq_ok_iff {entry : Entry} :
    d.look path = .ok entry ↔ ∃ place, d.locate path = .ok place ∧ d.entry? place = some entry := by
  unfold look
  cases hplace : d.locate path with
  | error fault => simp [bind, Except.bind]
  | ok place => cases hentry : d.entry? place <;> simp [bind, Except.bind, hentry]

/-! ### Steps -/

/-- Everything that stands in the first tree stands in the second as it was, and only directories
are new there. -/
structure Keeps (d d' : Disk) : Prop where
  workingDirectory : d'.workingDirectory = d.workingDirectory
  entry : ∀ place entry, d.entry? place = some entry → d'.entry? place = some entry
  file : ∀ place bytes mode, d'.entry? place = some (.file bytes mode) →
    d.entry? place = some (.file bytes mode)

theorem Keeps.refl (d : Disk) : Keeps d d := ⟨rfl, fun _ _ h ↦ h, fun _ _ _ h ↦ h⟩

theorem Keeps.trans {first middle last : Disk} (h : Keeps first middle) (h' : Keeps middle last) :
    Keeps first last :=
  ⟨h'.workingDirectory.trans h.workingDirectory, fun place entry hplace ↦
    h'.entry place entry (h.entry place entry hplace), fun place bytes mode hplace ↦
    h.file place bytes mode (h'.file place bytes mode hplace)⟩

theorem Keeps.grows (h : Keeps d d') : Grows d d' :=
  ⟨h.workingDirectory, fun place hplace ↦ h.entry place .directory hplace⟩

theorem Keeps.look {entry : Entry} (h : Keeps d d') (hentry : d.look path = .ok entry) :
    d'.look path = .ok entry := by
  obtain ⟨place, hplace, hstands⟩ := look_eq_ok_iff.1 hentry
  exact look_eq_ok_iff.2 ⟨place, locate_of_grows h.grows hplace, h.entry place entry hstands⟩

theorem makeDirectory_ok (h : d.makeDirectory path = .ok d') :
    ∃ place, d.locate path = .ok place ∧ d.entry? place = none ∧ d' = d.put place .directory := by
  unfold makeDirectory at h
  cases hplace : d.locate path with
  | error fault => simp [hplace, bind, Except.bind] at h
  | ok place =>
    simp only [hplace, bind, Except.bind] at h
    cases hentry : d.entry? place with
    | some entry => simp [hentry] at h
    | none =>
      simp only [hentry, Except.ok.injEq] at h
      exact ⟨place, rfl, hentry, h.symm⟩

theorem keeps_makeDirectory (h : d.makeDirectory path = .ok d') : Keeps d d' := by
  obtain ⟨place, -, hentry, rfl⟩ := makeDirectory_ok h
  have hnone : d.entry? place ≠ some .directory := by simp [hentry]
  have hroot : place ≠ "" := ne_root hnone
  refine ⟨rfl, fun other entry hother ↦ ?_, fun other bytes mode hother ↦ ?_⟩
  · rw [entry?_put d place other .directory hroot, if_neg, hother]
    rintro rfl
    rw [hentry] at hother
    cases hother
  · rw [entry?_put d place other .directory hroot] at hother
    split at hother
    · cases hother
    · exact hother

/-- What making one directory does to a tree, and every directory above the path, making them all
does, half way or not. -/
theorem of_makeDirectories (R : Disk → Disk → Prop) (hrefl : ∀ d, R d d)
    (htrans : ∀ d d' d'', R d d' → R d' d'' → R d d'') (levels : Nat) (path : String)
    (hstep : ∀ above, Path.Above above path → ∀ d d', d.makeDirectory above = .ok d' → R d d')
    (d : Disk) : R d (makeDirectories path levels d).1 := by
  induction levels generalizing path d with
  | zero => exact hrefl d
  | succ levels ih =>
    have hmake := hstep path Relation.ReflTransGen.refl
    rw [makeDirectories]
    split
    · exact hrefl d
    · split
      · next made hmade => exact hmake d made hmade
      · split
        · exact hrefl d
        · next parent hparent =>
          have habove := ih parent (fun above h ↦ hstep above (h.tail hparent)) d
          split
          · next middle fault hmiddle =>
            rw [hmiddle] at habove
            exact habove
          · next middle hmiddle =>
            rw [hmiddle] at habove
            refine htrans _ _ _ habove ?_
            split
            · next made hmade => exact hmake middle made hmade
            · split <;> exact hrefl middle
      · split <;> exact hrefl d

/-- Making directories, half way or all of it, leaves what is there. -/
theorem keeps_makeDirectories (levels : Nat) (path : String) (d : Disk) :
    Keeps d (makeDirectories path levels d).1 :=
  of_makeDirectories Keeps Keeps.refl (fun _ _ _ ↦ Keeps.trans) levels path
    (fun _ _ _ _ ↦ keeps_makeDirectory) d

theorem put_put (d : Disk) (place : String) (entry entry' : Entry) :
    (d.put place entry).put place entry' = d.put place entry' := by
  have hentries : (d.entries.insert place entry).insert place entry' =
      d.entries.insert place entry' := by
    refine NameMap.ext_get? fun other ↦ ?_
    rw [NameMap.get?_insert, NameMap.get?_insert, NameMap.get?_insert]
    split <;> rfl
  simp only [put, hentries]

/-- The permission bits of the file at a place once it is open for writing. -/
def openedMode (d : Disk) (place : String) : Nat :=
  match d.entry? place with
  | some (.file _ mode) => mode
  | _ => usualMode

theorem take_truncate (hplace : d.locate path = .ok place)
    (hfree : d.entry? place ≠ some .directory) :
    d.take (.truncate path) =
      (d.put place (.file ByteArray.empty (d.openedMode place)), none) := by
  simp only [take, truncate, openedMode, hplace, bind, Except.bind]
  cases hentry : d.entry? place with
  | none => rfl
  | some entry =>
    cases entry with
    | directory => exact absurd hentry hfree
    | file bytes mode => rfl

/-- A file can be opened for writing if its path leads to a place where no directory stands, and
nothing changes if it can not. -/
theorem take_truncate_cases (d : Disk) (path : String) :
    (∃ fault, d.take (.truncate path) = (d, some fault)) ∨
      ∃ place, d.locate path = .ok place ∧ d.entry? place ≠ some .directory := by
  cases hplace : d.locate path with
  | error fault =>
    refine Or.inl ⟨fault, ?_⟩
    simp only [take, truncate, hplace, bind, Except.bind, orElse]
  | ok place =>
    by_cases hfree : d.entry? place = some .directory
    · refine Or.inl ⟨.isDirectory, ?_⟩
      simp only [take, truncate, hplace, hfree, bind, Except.bind, orElse]
    · exact Or.inr ⟨place, rfl, hfree⟩

theorem fill_of_file {old bytes : ByteArray} {mode : Nat} (hplace : d.locate path = .ok place)
    (hentry : d.entry? place = some (.file old mode)) :
    d.fill path bytes = .ok (d.put place (.file bytes mode)) := by
  simp only [fill, hplace, bind, Except.bind, hentry]

theorem restrict_of_file {bytes : ByteArray} {old mode : Nat} (hplace : d.locate path = .ok place)
    (hentry : d.entry? place = some (.file bytes old)) :
    d.restrict path mode = .ok (d.put place (.file bytes mode)) := by
  simp only [restrict, hplace, bind, Except.bind, hentry]

theorem fill_put {old bytes : ByteArray} {mode : Nat} (hplace : d.locate path = .ok place)
    (hfree : d.entry? place ≠ some .directory) :
    (d.put place (.file old mode)).fill path bytes = .ok (d.put place (.file bytes mode)) := by
  rw [fill_of_file (locate_of_grows (grows_put _ hfree) hplace)
    (entry?_put_self d _ (ne_root hfree)), put_put]

theorem take_fill {old bytes : ByteArray} {mode : Nat} (hplace : d.locate path = .ok place)
    (hfree : d.entry? place ≠ some .directory) :
    (d.put place (.file old mode)).take (.fill path bytes) =
      (d.put place (.file bytes mode), none) := by
  rw [take, fill_put hplace hfree, orElse]

theorem take_restrict {bytes : ByteArray} {old mode : Nat} (hplace : d.locate path = .ok place)
    (hfree : d.entry? place ≠ some .directory) :
    (d.put place (.file bytes old)).take (.restrict path mode) =
      (d.put place (.file bytes mode), none) := by
  rw [take, restrict_of_file (locate_of_grows (grows_put _ hfree) hplace)
    (entry?_put_self d _ (ne_root hfree)), orElse, put_put]

/-- Takes away what stands at a place. -/
def without (d : Disk) (place : String) : Disk := { d with entries := d.entries.erase place }

theorem entry?_without (d : Disk) (place other : String) (hplace : place ≠ "") :
    entry? (d.without place) other = if place = other then none else d.entry? other := by
  unfold entry? without
  by_cases hother : other.isEmpty
  · have hne : place ≠ other := by
      rintro rfl
      exact hplace (String.isEmpty_iff.1 hother)
    rw [if_pos hother, if_neg hne, if_pos hother]
  · simp only [hother, if_false, NameMap.get?_erase, Bool.false_eq_true]

theorem grows_without (h : d.entry? place ≠ some .directory) : Grows d (d.without place) := by
  refine ⟨rfl, fun other hother ↦ ?_⟩
  rw [entry?_without d place other (ne_root h), if_neg, hother]
  rintro rfl
  exact h hother

variable {source target first last : String} {bytes : ByteArray} {mode : Nat}

theorem rename_of_file (hsource : d.locate source = .ok first)
    (htarget : d.locate target = .ok last) (hfile : d.entry? first = some (.file bytes mode))
    (hfree : d.entry? last ≠ some .directory) :
    d.rename source target = .ok ((d.without first).put last (.file bytes mode)) := by
  simp only [rename, hsource, htarget, bind, Except.bind, hfile]
  cases hentry : d.entry? last with
  | none => rfl
  | some entry =>
    cases entry with
    | directory => exact absurd hentry hfree
    | file old oldMode => rfl

theorem rename_ok (h : d.rename source target = .ok d') :
    ∃ first last bytes mode, d.locate source = .ok first ∧ d.locate target = .ok last ∧
      d.entry? first = some (.file bytes mode) ∧ d.entry? last ≠ some .directory ∧
      d' = (d.without first).put last (.file bytes mode) := by
  have hrename := h
  unfold rename at h
  cases hsource : d.locate source with
  | error fault => simp [hsource, bind, Except.bind] at h
  | ok first =>
    cases htarget : d.locate target with
    | error fault => simp [hsource, htarget, bind, Except.bind] at h
    | ok last =>
      simp only [hsource, htarget, bind, Except.bind] at h
      cases hfile : d.entry? first with
      | none => simp [hfile] at h
      | some entry =>
        cases entry with
        | directory => simp [hfile] at h
        | file bytes mode =>
          have hfree : d.entry? last ≠ some .directory := by
            intro hdirectory
            simp [hfile, hdirectory] at h
          rw [rename_of_file hsource htarget hfile hfree] at hrename
          exact ⟨first, last, bytes, mode, rfl, rfl, hfile, hfree, (Except.ok.inj hrename).symm⟩

/-- What was moved stands where it was moved to. -/
theorem look_moved (htarget : d.locate target = .ok last)
    (hfile : d.entry? first = some (.file bytes mode)) (hfree : d.entry? last ≠ some .directory) :
    ((d.without first).put last (.file bytes mode)).look target = .ok (.file bytes mode) := by
  have hfirst : d.entry? first ≠ some .directory := by simp [hfile]
  have hstill : entry? (d.without first) last ≠ some .directory := by
    rw [entry?_without d first last (ne_root hfirst)]
    split
    · simp
    · exact hfree
  have hplace := locate_of_grows ((grows_without hfirst).trans
    (grows_put (.file bytes mode) hstill)) htarget
  refine look_eq_ok_iff.2 ⟨last, hplace, ?_⟩
  exact entry?_put_self _ _ (ne_root hstill)

/-! ### Plans -/

variable {step : Step} {failure : IoFault → Failure} {rest : List Planned} {next : Disk}

theorem after_cons_ok (h : d.take step = (next, none)) :
    d.after ({ step, failure } :: rest) = next.after rest := by
  rw [after, h]

theorem after_cons_error {fault : IoFault} (h : d.take step = (next, some fault)) :
    d.after ({ step, failure } :: rest) = (next, .error (failure fault)) := by
  rw [after, h]

theorem after_append (d : Disk) (first second : List Planned) :
    d.after (first ++ second) =
      match d.after first with
      | (next, .ok ()) => next.after second
      | (next, .error failure) => (next, .error failure) := by
  induction first generalizing d with
  | nil => rfl
  | cons planned rest ih =>
    rw [List.cons_append, after, after]
    rcases d.take planned.step with ⟨next, _ | fault⟩
    · exact ih next
    · rfl

end Disk

/-- A desk follows a plan as its tree does. -/
theorem Desk.disk_of_follow (desk : Desk) (plan : List Planned) :
    (desk.follow plan).1.disk = (desk.disk.after plan).1 ∧
      (desk.follow plan).2 = (desk.disk.after plan).2 := by
  induction plan generalizing desk with
  | nil => exact ⟨rfl, rfl⟩
  | cons planned rest ih =>
    rw [Desk.follow, Disk.after, Desk.take]
    rcases desk.disk.take planned.step with ⟨next, _ | fault⟩
    · exact ih _
    · exact ⟨rfl, rfl⟩

end Wayfinder.Files

namespace Wayfinder.Store

open Files

variable {s : Store} {d d' : Disk} {bytes : ByteArray}

/-- The steps that make the directory of the kubeconfig. -/
def preparing (s : Store) : List Planned :=
  match Path.parent? s.path with
  | none => []
  | some parent =>
    if parent.isEmpty then []
    else
      [{ step := .makeDirectories parent
         failure := fault "Failed to create kubeconfig directory" parent }]

/-- The last step, which replaces the kubeconfig. -/
def replacing (s : Store) : Planned where
  step := .rename s.temporaryPath s.path
  failure := fault "Failed to rename temp kubeconfig to" s.path

/-- The steps from the opening of the temporary file on. -/
def writing (s : Store) (bytes : ByteArray) : List Planned :=
  let temporary := s.temporaryPath
  let failure := fault "Failed to write temp kubeconfig" temporary
  [{ step := .truncate temporary, failure },
    { step := .fill temporary bytes, failure },
    { step := .restrict temporary privateMode
      failure := fun f ↦ .config ("Failed to set permissions on kubeconfig: " ++ f.message) },
    s.replacing]

theorem plan_eq (s : Store) (bytes : ByteArray) : s.plan bytes = s.preparing ++ s.writing bytes :=
  rfl

/-- Making the directory of the kubeconfig leaves what is there. -/
theorem keeps_preparing (s : Store) (d : Disk) : Disk.Keeps d (d.after s.preparing).1 := by
  unfold preparing
  cases Path.parent? s.path with
  | none => exact Disk.Keeps.refl d
  | some parent =>
    simp only
    split
    · exact Disk.Keeps.refl d
    · have hkeeps := Disk.keeps_makeDirectories ((Path.names parent).length + 2) parent d
      simp only [Disk.after, Disk.take]
      split <;> simp_all

/-- Once the temporary file can be opened, all but the last step go right. -/
theorem after_writing (s : Store) (bytes : ByteArray) (d : Disk) :
    (∃ failure, d.after (s.writing bytes) = (d, .error failure)) ∨
      ∃ place, d.locate s.temporaryPath = .ok place ∧ d.entry? place ≠ some .directory ∧
        d.after (s.writing bytes) =
          (d.put place (.file bytes privateMode)).after [s.replacing] := by
  unfold writing
  rcases Disk.take_truncate_cases d s.temporaryPath with ⟨fault, hwrong⟩ | ⟨place, hplace, hfree⟩
  · exact Or.inl ⟨_, Disk.after_cons_error hwrong⟩
  · refine Or.inr ⟨place, hplace, hfree, ?_⟩
    exact (Disk.after_cons_ok (Disk.take_truncate hplace hfree)).trans
      ((Disk.after_cons_ok (Disk.take_fill hplace hfree)).trans
        (Disk.after_cons_ok (Disk.take_restrict hplace hfree)))

theorem after_replacing (s : Store) (d : Disk) :
    d.after [s.replacing] =
      match d.rename s.temporaryPath s.path with
      | .ok next => (next, .ok ())
      | .error fault => (d, .error (s.replacing.failure fault)) := by
  cases hmoved : d.rename s.temporaryPath s.path with
  | ok next => exact Disk.after_cons_ok (by rw [Disk.take, hmoved, Disk.orElse])
  | error fault => exact Disk.after_cons_error (by rw [Disk.take, hmoved, Disk.orElse])

/-- A plan goes wrong before the temporary file is written, with nothing but directories made, or
comes to its last step. -/
theorem after_plan (s : Store) (bytes : ByteArray) (d : Disk) :
    (∃ prepared failure, Disk.Keeps d prepared ∧
        d.after (s.plan bytes) = (prepared, .error failure)) ∨
      ∃ prepared place, Disk.Keeps d prepared ∧ prepared.locate s.temporaryPath = .ok place ∧
        prepared.entry? place ≠ some .directory ∧
        d.after (s.plan bytes) =
          (prepared.put place (.file bytes privateMode)).after [s.replacing] := by
  have hkeeps := keeps_preparing s d
  rw [plan_eq, Disk.after_append]
  rcases hprepared : d.after s.preparing with ⟨prepared, failure | _⟩
  · rw [hprepared] at hkeeps
    exact Or.inl ⟨prepared, failure, hkeeps, rfl⟩
  · rw [hprepared] at hkeeps
    rcases after_writing s bytes prepared with ⟨failure, hafter⟩ | ⟨place, hplace, hfree, hafter⟩
    · exact Or.inl ⟨prepared, failure, hkeeps, hafter⟩
    · exact Or.inr ⟨prepared, place, hkeeps, hplace, hfree, hafter⟩

/-- After a save that goes right the kubeconfig holds what was saved. -/
theorem read_of_plan_ok (h : d.after (s.plan bytes) = (d', .ok ())) :
    d'.read s.path = .ok bytes := by
  rcases after_plan s bytes d with ⟨prepared, failure, -, hafter⟩ |
    ⟨prepared, place, -, hplace, hfree, hafter⟩
  · rw [hafter] at h
    cases h
  · rw [hafter, after_replacing] at h
    cases hmoved : (prepared.put place (.file bytes privateMode)).rename s.temporaryPath s.path with
    | error fault => simp [hmoved] at h
    | ok moved =>
      obtain rfl : moved = d' := by simpa [hmoved] using h
      obtain ⟨first, last, moving, mode, hfirst, hlast, hentry, hopen, rfl⟩ :=
        Disk.rename_ok hmoved
      obtain rfl : place = first := Except.ok.inj
        ((Disk.locate_of_grows (Disk.grows_put _ hfree) hplace).symm.trans hfirst)
      have hwritten := Disk.entry?_put_self prepared (.file bytes privateMode)
        (Disk.ne_root hfree)
      rw [hwritten] at hentry
      cases hentry
      rw [Disk.read, Disk.look_moved hlast hwritten hopen]

/-- A save that goes wrong leaves a kubeconfig that is there as it was. -/
theorem look_of_plan_error {old : ByteArray} {mode : Nat} {failure : Failure}
    (hfile : d.look s.path = .ok (.file old mode))
    (h : d.after (s.plan bytes) = (d', .error failure)) :
    d'.look s.path = .ok (.file old mode) := by
  rcases after_plan s bytes d with ⟨prepared, failure', hkeeps, hafter⟩ |
    ⟨prepared, place, hkeeps, hplace, hfree, hafter⟩
  · rw [hafter] at h
    cases h
    exact hkeeps.look hfile
  · -- The temporary file was written, and then a kubeconfig that is there can be replaced.
    exfalso
    obtain ⟨target, htarget, hstands⟩ := Disk.look_eq_ok_iff.1 (hkeeps.look hfile)
    have hgrows := Disk.grows_put (.file bytes privateMode) hfree
    have hwritten := Disk.entry?_put_self prepared (.file bytes privateMode)
      (Disk.ne_root hfree)
    have hfree' : Disk.entry? (prepared.put place (.file bytes privateMode)) target ≠
        some .directory := by
      rw [Disk.entry?_put _ _ _ _ (Disk.ne_root hfree)]
      split
      · simp
      · simp [hstands]
    rw [hafter, after_replacing, Disk.rename_of_file (Disk.locate_of_grows hgrows hplace)
      (Disk.locate_of_grows hgrows htarget) hwritten hfree'] at h
    cases h

end Wayfinder.Store
