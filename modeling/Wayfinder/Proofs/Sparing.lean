import Wayfinder.Proofs.Breaking

/-!
What a save does to the other files. Main statement: wherever a save ends, at its last step or at
one that goes wrong, the tree differs only at the kubeconfig, at its temporary file and by
directories above the kubeconfig; after a save that goes right nothing is left of the temporary
file; and every other file is in place with what is in it exactly if no other file stands where the
temporary file is written (`Store.save_spares_iff`). The temporary file has the name of the
kubeconfig with another ending, so `kube.yaml` and `kube.json` share theirs with each other, and with
a file `kube.tmp`.
-/

set_option autoImplicit false
set_option relaxedAutoImplicit false

namespace Wayfinder.Store

open Files

variable {s : Store} {d d' prepared : Disk} {bytes : ByteArray} {place other : String}
  {r : Except Failure Unit}

/-- A directory that was made above the kubeconfig stands at a place. -/
def Adds (s : Store) (d d' : Disk) (place : String) : Prop :=
  d.entry? place = none ∧ d'.entry? place = some .directory ∧
    ∃ above, Path.Above above s.path ∧ d'.locate above = .ok place

/-- Every file that was there, but for the kubeconfig, is in place with what is in it. -/
def Spares (s : Store) (d d' : Disk) : Prop :=
  ∀ place bytes, d.file? place = some bytes → d'.locate s.path ≠ .ok place →
    d'.file? place = some bytes

/-- Another file than the kubeconfig stands where the temporary file is written. -/
def Tramples (s : Store) (d : Disk) : Prop :=
  s.temporaryPath ≠ s.path ∧ ∃ prepared place, d.after s.preparing = (prepared, .ok ()) ∧
    prepared.locate s.temporaryPath = .ok place ∧ d.file? place ≠ none

/-! ### Where a tree differs after a save -/

theorem adds_of_spreads (h : Disk.Spreads s.path d prepared) (hgrows : Disk.Grows prepared d')
    (hplace : prepared.entry? place ≠ d.entry? place) : s.Adds d d' place := by
  obtain ⟨hnone, hdirectory⟩ := h.directory hplace
  obtain ⟨above, habove, hlocate⟩ := h.above place hplace
  exact ⟨hnone, hgrows.directory place hdirectory, above, habove,
    Disk.locate_of_grows hgrows hlocate⟩

/-- Only the temporary file and the kubeconfig are written. -/
theorem Leaves.entry? (h : s.Leaves bytes prepared place d' r)
    (hfree : prepared.entry? place ≠ some .directory) (hplace : place ≠ other)
    (hpath : d'.locate s.path ≠ .ok other) : d'.entry? other = prepared.entry? other := by
  have hroot := Disk.ne_root hfree
  have hgrows := h.grows hfree
  cases h with
  | filling => rw [Disk.entry?_put _ _ _ _ hroot, if_neg hplace]
  | closed => rw [Disk.entry?_put _ _ _ _ hroot, if_neg hplace]
  | @moved target htarget hopen =>
    have hother : target ≠ other := by
      rintro rfl
      exact hpath (Disk.locate_of_grows hgrows htarget)
    rw [Disk.entry?_put _ _ _ _ (Disk.ne_root hopen), if_neg hother,
      Disk.entry?_without _ _ _ hroot, if_neg hplace]

/-- When a save has gone right, no temporary file is left. -/
theorem Leaves.entry?_temporary (h : s.Leaves bytes prepared place d' (.ok ()))
    (hfree : prepared.entry? place ≠ some .directory) (hpath : d'.locate s.path ≠ .ok place) :
    d'.entry? place = none := by
  have hroot := Disk.ne_root hfree
  have hgrows := h.grows hfree
  cases h with
  | @moved target htarget hopen =>
    have hother : target ≠ place := by
      rintro rfl
      exact hpath (Disk.locate_of_grows hgrows htarget)
    rw [Disk.entry?_put _ _ _ _ (Disk.ne_root hopen), if_neg hother,
      Disk.entry?_without _ _ _ hroot, if_pos rfl]

/-- However a save ends, the tree is as it was but for the kubeconfig, its temporary file and new
directories. -/
theorem cases_of_ends (h : d.Ends (s.plan bytes) d' r) (hplace : d'.entry? place ≠ d.entry? place) :
    d'.locate s.path = .ok place ∨ d'.locate s.temporaryPath = .ok place ∨ s.Adds d d' place := by
  rcases ends_plan h with ⟨-, hspreads⟩ |
    ⟨prepared, temporary, hspreads, -, htemporary, hfree, hleaves⟩
  · exact Or.inr (Or.inr (adds_of_spreads hspreads (Disk.Keeps.refl d').grows hplace))
  · have hgrows := hleaves.grows hfree
    by_cases hpath : d'.locate s.path = .ok place
    · exact Or.inl hpath
    by_cases hsame : temporary = place
    · exact Or.inr (Or.inl (hsame ▸ Disk.locate_of_grows hgrows htemporary))
    · rw [hleaves.entry? hfree hsame hpath] at hplace
      exact Or.inr (Or.inr (adds_of_spreads hspreads hgrows hplace))

/-- When a save has gone right, nothing new is there but the kubeconfig and directories above it. -/
theorem cases_of_ends_ok (h : d.Ends (s.plan bytes) d' (.ok ())) (hnone : d.entry? place = none)
    (hplace : d'.entry? place ≠ none) : d'.locate s.path = .ok place ∨ s.Adds d d' place := by
  have hnew : d'.entry? place ≠ d.entry? place := fun hsame ↦ hplace (hsame.trans hnone)
  rcases ends_plan h with ⟨⟨failure, hfailure⟩, -⟩ |
    ⟨prepared, temporary, hspreads, -, htemporary, hfree, hleaves⟩
  · cases hfailure
  · by_cases hpath : d'.locate s.path = .ok place
    · exact Or.inl hpath
    by_cases hsame : temporary = place
    · subst hsame
      exact absurd (hleaves.entry?_temporary hfree hpath) hplace
    · rw [hleaves.entry? hfree hsame hpath] at hnew
      exact Or.inr (adds_of_spreads hspreads (hleaves.grows hfree) hnew)

/-! ### Other files -/

theorem spares_of_ends (h : d.Ends (s.plan bytes) d' r) (hclear : ¬ s.Tramples d) :
    s.Spares d d' := by
  intro place old hold hpath
  rcases ends_plan h with ⟨-, hspreads⟩ |
    ⟨prepared, temporary, hspreads, hprepared, htemporary, hfree, hleaves⟩
  · rw [hspreads.toKeeps.file?_eq, hold]
  · have hne : temporary ≠ place := by
      rintro rfl
      -- The file is the kubeconfig itself, or none stands there.
      by_cases hsame : s.temporaryPath = s.path
      · exact hpath (hsame ▸ Disk.locate_of_grows (hleaves.grows hfree) htemporary)
      · exact hclear ⟨hsame, prepared, temporary, hprepared, htemporary, by simp [hold]⟩
    rw [Disk.file?, hleaves.entry? hfree hne hpath, ← Disk.file?, hspreads.toKeeps.file?_eq, hold]

/-- A file that is trampled on is lost when the save is broken off, while the temporary file is
still empty or when it is full. -/
theorem exists_not_spares (h : s.Tramples d) (hbytes : bytes ≠ ByteArray.empty) :
    ∃ d' failure, d.Ends (s.plan bytes) d' (.error failure) ∧ ¬ s.Spares d d' := by
  obtain ⟨hdiffer, prepared, place, hprepared, hplace, hold⟩ := h
  obtain ⟨old, hold⟩ := Option.ne_none_iff_exists'.1 hold
  have hkeeps := keeps_preparing s d
  rw [hprepared] at hkeeps
  have hstands := (hkeeps.file?_eq place).trans hold
  have hfree : prepared.entry? place ≠ some .directory := by
    intro hdirectory
    simp [Disk.file?, hdirectory] at hstands
  have hlost : ∀ first, first ≠ old →
      ¬ s.Spares d (prepared.put place (.file first (prepared.openedMode place))) := by
    intro first hfirst hspares
    have hpath : (prepared.put place (.file first (prepared.openedMode place))).locate s.path ≠
        .ok place := fun hpath ↦ hdiffer (temporaryPath_eq_of_locate
      (Disk.locate_of_grows (Disk.grows_put _ hfree) hplace) hpath (by
        rw [Disk.entry?_put_self _ _ (Disk.ne_root hfree)]; simp))
    have hfile := hspares place old hold hpath
    rw [Disk.file?_put_self (Disk.ne_root hfree)] at hfile
    exact hfirst (Option.some.inj hfile)
  by_cases hempty : old = ByteArray.empty
  · obtain ⟨failure, hends⟩ := ends_filling ByteArray.append_empty hprepared hplace hfree
    exact ⟨_, failure, hends, hlost bytes (hempty ▸ hbytes)⟩
  · obtain ⟨failure, hends⟩ := ends_filling ByteArray.empty_append hprepared hplace hfree
    exact ⟨_, failure, hends, hlost ByteArray.empty (Ne.symm hempty)⟩

/-- Wherever a save ends, the tree differs only at the kubeconfig, at its temporary file and by
directories above the kubeconfig, and when it has gone right by nothing new but the kubeconfig and
such directories. All other files are in place with what is in them, wherever it ends, if and only
if no other file stands where the temporary file is written. -/
theorem save_spares_iff (s : Store) (d : Disk) (config : Kubeconfig) :
    (∀ d' r, d.Ends (s.savePlan config) d' r → ∀ place, d'.entry? place ≠ d.entry? place →
      d'.locate s.path = .ok place ∨ d'.locate s.temporaryPath = .ok place ∨
        s.Adds d d' place) ∧
    (∀ d', d.Ends (s.savePlan config) d' (.ok ()) → ∀ place, d.entry? place = none →
      d'.entry? place ≠ none → d'.locate s.path = .ok place ∨ s.Adds d d' place) ∧
    ((∀ d' r, d.Ends (s.savePlan config) d' r → s.Spares d d') ↔ ¬ s.Tramples d) := by
  refine ⟨fun d' r h place ↦ cases_of_ends h, fun d' h place ↦ cases_of_ends_ok h, ?_⟩
  constructor
  · intro hspares htramples
    obtain ⟨d', failure, hends, hlost⟩ :=
      exists_not_spares htramples (encode_render_ne_empty config)
    exact hlost (hspares d' _ hends)
  · exact fun hclear d' r h ↦ spares_of_ends h hclear

/-- A kubeconfig beside a file that has its name with another ending. -/
def neighboured : Store where
  path := "kube.yaml"

/-- A tree with such a file. -/
def neighbouredDisk : Disk where
  entries := NameMap.ofList [("/kube.tmp", .file (Text.encode "precious\n") usualMode)]

theorem after_neighboured (bytes : ByteArray) :
    neighbouredDisk.after (neighboured.plan bytes) =
      ((neighbouredDisk.without "/kube.tmp").put "/kube.yaml" (.file bytes privateMode),
        .ok ()) := by
  have hplace : neighbouredDisk.locate neighboured.temporaryPath = .ok "/kube.tmp" := rfl
  have hentry : neighbouredDisk.entry? "/kube.tmp" =
      some (.file (Text.encode "precious\n") usualMode) := rfl
  have hfree : neighbouredDisk.entry? "/kube.tmp" ≠ some .directory := by simp [hentry]
  rw [plan_eq, show neighboured.preparing = [] from rfl, List.nil_append]
  refine (Disk.after_cons_ok (Disk.take_truncate hplace hfree)).trans
    ((Disk.after_cons_ok (Disk.take_fill hplace hfree)).trans
      ((Disk.after_cons_ok (Disk.take_restrict hplace hfree)).trans ?_))
  exact (after_replacing _ _).trans rfl

/-- A save that goes right takes that file away. -/
theorem neighbour_lost :
    neighbouredDisk.file? "/kube.tmp" = some (Text.encode "precious\n") ∧
      (neighbouredDisk.after (neighboured.savePlan {})).2 = .ok () ∧
      (neighbouredDisk.after (neighboured.savePlan {})).1.locate neighboured.path ≠
        .ok "/kube.tmp" ∧
      (neighbouredDisk.after (neighboured.savePlan {})).1.file? "/kube.tmp" = none := by
  rw [savePlan, after_neighboured]
  generalize Text.encode (Kubeconfig.render {}) = bytes
  have hpath : ((neighbouredDisk.without "/kube.tmp").put "/kube.yaml"
      (.file bytes privateMode)).locate neighboured.path = .ok "/kube.yaml" := rfl
  refine ⟨rfl, rfl, ?_, rfl⟩
  rw [hpath]
  exact fun hsame ↦ absurd (Except.ok.inj hsame) (by decide)

end Wayfinder.Store
