import Wayfinder.Proofs.Loading
import Wayfinder.Switch.Pointer

/-!
What a plan leaves alone, if nothing breaks it off. Main statements: a step leaves the file at a
place to which none of its paths leads (`Disk.file?_take`), and a save that goes wrong leaves the
kubeconfig, whatever stood at its path (`Store.untouched_of_plan_error`). A pointer file is written
as a whole or left (`PointerFile.after_plan`).
-/

set_option autoImplicit false
set_option relaxedAutoImplicit false

namespace Wayfinder

namespace Files

/-! ### Files at a place -/

/-- The octets of the file at a place. -/
def Disk.file? (d : Disk) (place : String) : Option ByteArray :=
  match d.entry? place with
  | some (.file bytes _) => some bytes
  | _ => none

/-- The paths of the files that a step may change. -/
def Step.touched : Step → List String
  | .makeDirectories _ => []
  | .truncate path => [path]
  | .fill path _ => [path]
  | .restrict path _ => [path]
  | .rename source target => [source, target]

/-- A path does not lead to a place, whatever directories there are. -/
def Path.Avoids (path place : String) : Prop :=
  ∀ (d : Disk) (other : String), d.locate path = .ok other → other ≠ place

namespace Disk

variable {d d' : Disk} {path place : String}

theorem Keeps.file?_eq (h : Keeps d d') (place : String) : d'.file? place = d.file? place := by
  unfold file?
  cases hentry : d.entry? place with
  | some entry => rw [h.entry place entry hentry]
  | none =>
    cases hentry' : d'.entry? place with
    | none => rfl
    | some entry =>
      cases entry with
      | directory => rfl
      | file bytes mode => simp [h.file place bytes mode hentry'] at hentry

theorem file?_put {other : String} (entry : Entry) (hroot : other ≠ "") (h : other ≠ place) :
    (d.put other entry).file? place = d.file? place := by
  unfold file?
  rw [entry?_put d other place entry hroot, if_neg h]

theorem file?_put_self {bytes : ByteArray} {mode : Nat} (hroot : place ≠ "") :
    (d.put place (.file bytes mode)).file? place = some bytes := by
  unfold file?
  rw [entry?_put_self d _ hroot]

theorem file?_without {other : String} (hroot : other ≠ "") (h : other ≠ place) :
    (d.without other).file? place = d.file? place := by
  unfold file?
  rw [entry?_without d other place hroot, if_neg h]

theorem fill_ok {bytes : ByteArray} (h : d.fill path bytes = .ok d') :
    ∃ place old mode, d.locate path = .ok place ∧ d.entry? place = some (.file old mode) ∧
      d' = d.put place (.file bytes mode) := by
  unfold fill at h
  cases hplace : d.locate path with
  | error fault => simp [hplace, bind, Except.bind] at h
  | ok place =>
    simp only [hplace, bind, Except.bind] at h
    cases hentry : d.entry? place with
    | none => simp [hentry] at h
    | some entry =>
      cases entry with
      | directory => simp [hentry] at h
      | file old mode =>
        simp only [hentry, Except.ok.injEq] at h
        exact ⟨place, old, mode, rfl, hentry, h.symm⟩

theorem restrict_ok {mode : Nat} (h : d.restrict path mode = .ok d') :
    d' = d ∨ ∃ place bytes old, d.locate path = .ok place ∧
      d.entry? place = some (.file bytes old) ∧ d' = d.put place (.file bytes mode) := by
  unfold restrict at h
  cases hplace : d.locate path with
  | error fault => simp [hplace, bind, Except.bind] at h
  | ok place =>
    simp only [hplace, bind, Except.bind] at h
    cases hentry : d.entry? place with
    | none => simp [hentry] at h
    | some entry =>
      cases entry with
      | directory =>
        simp only [hentry, Except.ok.injEq] at h
        exact Or.inl h.symm
      | file bytes old =>
        simp only [hentry, Except.ok.injEq] at h
        exact Or.inr ⟨place, bytes, old, rfl, hentry, h.symm⟩

/-- A step makes directories, changes the file at one of its paths, or moves one there from another.
-/
theorem take_cases (d : Disk) (step : Step) :
    Keeps d (d.take step).1 ∨
      (∃ path ∈ step.touched, ∃ place entry, d.locate path = .ok place ∧
        d.entry? place ≠ some .directory ∧ (d.take step).1 = d.put place entry) ∨
      ∃ source ∈ step.touched, ∃ target ∈ step.touched, ∃ first last entry,
        d.locate source = .ok first ∧ d.locate target = .ok last ∧
        d.entry? first ≠ some .directory ∧ d.entry? last ≠ some .directory ∧
        (d.take step).1 = (d.without first).put last entry := by
  cases step with
  | makeDirectories path => exact Or.inl (keeps_makeDirectories _ path d)
  | truncate path =>
    rcases take_truncate_cases d path with ⟨fault, hwrong⟩ | ⟨place, hplace, hfree⟩
    · rw [hwrong]
      exact Or.inl (Keeps.refl d)
    · rw [take_truncate hplace hfree]
      exact Or.inr (Or.inl ⟨path, List.mem_singleton_self path, place, _, hplace, hfree, rfl⟩)
  | fill path bytes =>
    rw [take]
    cases hfilled : d.fill path bytes with
    | error fault => exact Or.inl (Keeps.refl d)
    | ok filled =>
      obtain ⟨place, old, mode, hplace, hfile, rfl⟩ := fill_ok hfilled
      exact Or.inr (Or.inl ⟨path, List.mem_singleton_self path, place, _, hplace, by simp [hfile],
        rfl⟩)
  | restrict path mode =>
    rw [take]
    cases hrestricted : d.restrict path mode with
    | error fault => exact Or.inl (Keeps.refl d)
    | ok restricted =>
      rcases restrict_ok hrestricted with rfl | ⟨place, bytes, old, hplace, hfile, rfl⟩
      · exact Or.inl (Keeps.refl _)
      · exact Or.inr (Or.inl ⟨path, List.mem_singleton_self path, place, _, hplace,
          by simp [hfile], rfl⟩)
  | rename source target =>
    rw [take]
    cases hmoved : d.rename source target with
    | error fault => exact Or.inl (Keeps.refl d)
    | ok moved =>
      obtain ⟨first, last, bytes, mode, hfirst, hlast, hfile, hfree, rfl⟩ := rename_ok hmoved
      exact Or.inr (Or.inr ⟨source, by simp [Step.touched], target, by simp [Step.touched], first,
        last, _, hfirst, hlast, by simp [hfile], hfree, rfl⟩)

theorem grows_move {first last : String} (entry : Entry) (hfirst : d.entry? first ≠ some .directory)
    (hlast : d.entry? last ≠ some .directory) : Grows d ((d.without first).put last entry) := by
  refine (grows_without hfirst).trans (grows_put entry ?_)
  rw [entry?_without d first last (ne_root hfirst)]
  split
  · simp
  · exact hlast

/-- No step takes a directory away. -/
theorem grows_take (d : Disk) (step : Step) : Grows d (d.take step).1 := by
  rcases take_cases d step with hkeeps | ⟨path, -, place, entry, -, hfree, hnext⟩ |
    ⟨source, -, target, -, first, last, entry, -, -, hfirst, hlast, hnext⟩
  · exact hkeeps.grows
  · rw [hnext]
    exact grows_put entry hfree
  · rw [hnext]
    exact grows_move entry hfirst hlast

/-- A step leaves the file at a place to which none of its paths leads. -/
theorem file?_take (d : Disk) (step : Step)
    (h : ∀ path ∈ step.touched, Files.Path.Avoids path place) :
    (d.take step).1.file? place = d.file? place := by
  rcases take_cases d step with hkeeps | ⟨path, hpath, other, entry, hother, hfree, hnext⟩ |
    ⟨source, hsource, target, htarget, first, last, entry, hfirst, hlast, hfile, hfree, hnext⟩
  · exact hkeeps.file?_eq place
  · rw [hnext]
    exact file?_put entry (ne_root hfree) (h path hpath d other hother)
  · rw [hnext, file?_put entry (ne_root hfree) (h target htarget d last hlast),
      file?_without (ne_root hfile) (h source hsource d first hfirst)]

theorem read_eq_ok_iff {bytes : ByteArray} :
    d.read path = .ok bytes ↔ ∃ place, d.locate path = .ok place ∧ d.file? place = some bytes := by
  unfold read look file?
  cases hplace : d.locate path with
  | error fault => simp [bind, Except.bind]
  | ok place =>
    cases hentry : d.entry? place with
    | none => simp [bind, Except.bind, hentry]
    | some entry => cases entry <;> simp [bind, Except.bind, hentry]

end Disk

end Files

namespace Store

open Files

/-- The file of the kubeconfig is as it was: what stood at its path stands there, and a file that
stands where the path leads stood there before. The path may lead somewhere when it did not, if
directories were made. -/
structure Untouched (s : Store) (d d' : Disk) : Prop where
  stays : ∀ entry, d.look s.path = .ok entry → d'.look s.path = .ok entry
  stood : ∀ place bytes mode, d'.locate s.path = .ok place →
    d'.entry? place = some (.file bytes mode) → d.entry? place = some (.file bytes mode)

variable {s : Store} {d d' : Disk} {bytes : ByteArray} {failure : Failure}

theorem Untouched.refl (s : Store) (d : Disk) : s.Untouched d d :=
  ⟨fun _ h ↦ h, fun _ _ _ _ h ↦ h⟩

theorem touched_of_mem_plan {planned : Planned} {touched : String}
    (hplanned : planned ∈ s.plan bytes) (htouched : touched ∈ planned.step.touched) :
    touched = s.temporaryPath ∨ touched = s.path := by
  rw [plan_eq, List.mem_append] at hplanned
  rcases hplanned with hplanned | hplanned
  · unfold preparing at hplanned
    split at hplanned
    · cases hplanned
    · split at hplanned
      · cases hplanned
      · obtain rfl := List.mem_singleton.1 hplanned
        cases htouched
  · simp only [writing, List.mem_cons, List.not_mem_nil, or_false] at hplanned
    rcases hplanned with rfl | rfl | rfl | rfl
    · exact Or.inl (List.mem_singleton.1 htouched)
    · exact Or.inl (List.mem_singleton.1 htouched)
    · exact Or.inl (List.mem_singleton.1 htouched)
    · simpa [replacing, Step.touched] using htouched

/-- A save that goes wrong leaves the kubeconfig as it was. -/
theorem untouched_of_plan_error (h : d.after (s.plan bytes) = (d', .error failure)) :
    s.Untouched d d' := by
  rcases after_plan s bytes d with ⟨prepared, failure', hkeeps, hafter⟩ |
    ⟨prepared, place, hkeeps, hplace, hfree, hafter⟩
  · rw [hafter] at h
    cases h
    exact ⟨fun _ hentry ↦ hkeeps.look hentry, fun other old mode _ hfile ↦
      hkeeps.file other old mode hfile⟩
  · -- The temporary file was written, so the move failed for want of a file to be replaced.
    have hgrows := Disk.grows_put (.file bytes privateMode) hfree
    have hwritten := Disk.entry?_put_self prepared (.file bytes privateMode) (Disk.ne_root hfree)
    have hstuck : ∀ target,
        (prepared.put place (.file bytes privateMode)).locate s.path = .ok target →
        Disk.entry? (prepared.put place (.file bytes privateMode)) target = some .directory := by
      intro target htarget
      by_contra hopen
      rw [hafter, after_replacing, Disk.rename_of_file (Disk.locate_of_grows hgrows hplace) htarget
        hwritten hopen] at h
      cases h
    obtain rfl : prepared.put place (.file bytes privateMode) = d' := by
      rw [hafter, after_replacing] at h
      split at h
      · cases h
      · exact (Prod.ext_iff.1 h).1
    refine ⟨fun entry hentry ↦ ?_, fun target old mode htarget hfile ↦ ?_⟩
    · obtain ⟨target, htarget, hstands⟩ := Disk.look_eq_ok_iff.1 (hkeeps.look hentry)
      have hmoved := Disk.locate_of_grows hgrows htarget
      have hdirectory := hstuck target hmoved
      have hne : place ≠ target := by
        rintro rfl
        rw [hwritten] at hdirectory
        cases hdirectory
      rw [Disk.look_eq_ok_iff]
      refine ⟨target, hmoved, ?_⟩
      rwa [Disk.entry?_put _ _ _ _ (Disk.ne_root hfree), if_neg hne]
    · rw [hstuck target htarget] at hfile
      cases hfile

end Store

namespace Switch

open Files

/-! ### Plans of a pointer file -/

namespace PointerFile

variable {path name : String} {d d' : Disk}

/-- The steps that make the directory of the file. -/
def preparing (path : String) : List Planned :=
  match Path.parent? path with
  | none => []
  | some parent =>
    [{ step := .makeDirectories parent
       failure := Store.fault "Failed to create directory" parent }]

/-- The steps that write the file. -/
def writing (path : String) (bytes : ByteArray) : List Planned :=
  let failure := Store.fault "Failed to write last context" path
  [{ step := .truncate path, failure }, { step := .fill path bytes, failure }]

theorem plan_eq (path name : String) :
    plan path name = preparing path ++ writing path (Text.encode (name ++ "\n")) :=
  rfl

theorem keeps_preparing (path : String) (d : Disk) :
    Disk.Keeps d (d.after (preparing path)).1 := by
  unfold preparing
  cases Path.parent? path with
  | none => exact Disk.Keeps.refl d
  | some parent =>
    have hkeeps := Disk.keeps_makeDirectories ((Path.names parent).length + 2) parent d
    simp only [Disk.after, Disk.take]
    split <;> simp_all

/-- The file is written, unless it can not be opened. -/
theorem after_writing (path : String) (bytes : ByteArray) (d : Disk) :
    (∃ failure, d.after (writing path bytes) = (d, .error failure)) ∨
      ∃ next, d.after (writing path bytes) = (next, .ok ()) ∧ next.read path = .ok bytes := by
  unfold writing
  rcases Disk.take_truncate_cases d path with ⟨fault, hwrong⟩ | ⟨place, hplace, hfree⟩
  · exact Or.inl ⟨_, Disk.after_cons_error hwrong⟩
  · refine Or.inr ⟨_, (Disk.after_cons_ok (Disk.take_truncate hplace hfree)).trans
      (Disk.after_cons_ok (Disk.take_fill hplace hfree)), ?_⟩
    exact Disk.read_eq_ok_iff.2 ⟨place, Disk.locate_of_grows (Disk.grows_put _ hfree) hplace,
      Disk.file?_put_self (Disk.ne_root hfree)⟩

theorem after_plan (path name : String) (d : Disk) :
    (∃ next failure, d.after (plan path name) = (next, .error failure) ∧ Disk.Keeps d next) ∨
      ∃ next, d.after (plan path name) = (next, .ok ()) ∧
        next.read path = .ok (Text.encode (name ++ "\n")) := by
  have hkeeps := keeps_preparing path d
  rw [plan_eq, Disk.after_append]
  rcases hprepared : d.after (preparing path) with ⟨prepared, failure | _⟩
  · rw [hprepared] at hkeeps
    exact Or.inl ⟨prepared, failure, rfl, hkeeps⟩
  · rw [hprepared] at hkeeps
    rcases after_writing path (Text.encode (name ++ "\n")) prepared with ⟨failure, hafter⟩ | hafter
    · exact Or.inl ⟨prepared, failure, hafter, hkeeps⟩
    · exact Or.inr hafter

theorem read_of_plan_ok (h : d.after (plan path name) = (d', .ok ())) :
    d'.read path = .ok (Text.encode (name ++ "\n")) := by
  rcases after_plan path name d with ⟨next, failure, hafter, -⟩ | ⟨next, hafter, hread⟩
  · rw [hafter] at h
    cases h
  · rw [hafter] at h
    cases h
    exact hread

theorem touched_of_mem_plan {planned : Planned} {touched : String}
    (hplanned : planned ∈ plan path name) (htouched : touched ∈ planned.step.touched) :
    touched = path := by
  rw [plan_eq, List.mem_append] at hplanned
  rcases hplanned with hplanned | hplanned
  · unfold preparing at hplanned
    split at hplanned
    · cases hplanned
    · obtain rfl := List.mem_singleton.1 hplanned
      cases htouched
  · simp only [writing, List.mem_cons, List.not_mem_nil, or_false] at hplanned
    rcases hplanned with rfl | rfl
    · exact List.mem_singleton.1 htouched
    · exact List.mem_singleton.1 htouched

end PointerFile

end Switch

end Wayfinder
