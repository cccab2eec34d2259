import Wayfinder.Proofs.Breaking

/-!
Who may read what a save writes. The temporary file is made private only after it has been filled,
so until then its permission bits are those of a new file, or of the file that stood there.

Main statement: wherever a save ends, no file that others may read holds anything that it did not
hold so before, but for the temporary file of a save that went wrong. What is saved is newly shown to
others neither between the steps nor at the end, if and only if the temporary file is opened with
private bits, or showed the same before (`Store.save_exposes_iff`). A temporary file that was not
there before is not private (`Store.opens_of_none`).
-/

set_option autoImplicit false
set_option relaxedAutoImplicit false

namespace Wayfinder.Store

open Files

variable {s : Store} {d d' prepared : Disk} {bytes part : ByteArray} {place other : String}
  {r : Except Failure Unit}

/-- Permission bits that go no further than those of a private file. -/
def IsPrivate (mode : Nat) : Prop := mode ||| privateMode = privateMode

instance (mode : Nat) : Decidable (IsPrivate mode) := inferInstanceAs (Decidable (_ = _))

/-- A file at a place holds these octets, and not only its owner may have access to them. -/
def Exposes (d : Disk) (bytes : ByteArray) (place : String) : Prop :=
  ∃ mode, d.entry? place = some (.file bytes mode) ∧ ¬ IsPrivate mode

/-- The temporary file is opened at a place with permission bits that are not private. -/
def Opens (s : Store) (d : Disk) (place : String) : Prop :=
  ∃ prepared, d.after s.preparing = (prepared, .ok ()) ∧
    prepared.locate s.temporaryPath = .ok place ∧ prepared.entry? place ≠ some .directory ∧
    ¬ IsPrivate (prepared.openedMode place)

/-- A tree exposes these octets nowhere that they were not exposed before. -/
def Hides (bytes : ByteArray) (d d' : Disk) : Prop :=
  ∀ place, Exposes d' bytes place → Exposes d bytes place

/-- The temporary file is opened such that it exposes these octets where they were not exposed
before. -/
def Reveals (s : Store) (bytes : ByteArray) (d : Disk) : Prop :=
  ∃ place, s.Opens d place ∧ ¬ Exposes d bytes place

/-- A new temporary file is not private. -/
theorem opens_of_none (hprepared : d.after s.preparing = (prepared, .ok ()))
    (hplace : prepared.locate s.temporaryPath = .ok place) (hnone : prepared.entry? place = none) :
    s.Opens d place := by
  refine ⟨prepared, hprepared, hplace, by simp [hnone], ?_⟩
  rw [Disk.openedMode, hnone]
  decide

/-- A file that is put in place exposes what is in it, unless it is private. -/
theorem exposes_put_iff {mode : Nat} (hroot : place ≠ "") :
    Exposes (d.put place (.file bytes mode)) part other ↔
      if place = other then bytes = part ∧ ¬ IsPrivate mode else Exposes d part other := by
  unfold Exposes
  rw [Disk.entry?_put d place other _ hroot]
  split
  · simp only [Option.some.injEq, Entry.file.injEq]
    exact ⟨fun ⟨_, ⟨hpart, hmode⟩, hopen⟩ ↦ ⟨hpart, hmode ▸ hopen⟩,
      fun ⟨hpart, hopen⟩ ↦ ⟨mode, ⟨hpart, rfl⟩, hopen⟩⟩
  · exact Iff.rfl

theorem exposes_of_without (hroot : place ≠ "") (h : Exposes (d.without place) part other) :
    Exposes d part other := by
  obtain ⟨mode, hentry, hopen⟩ := h
  rw [Disk.entry?_without d place other hroot] at hentry
  split at hentry
  · cases hentry
  · exact ⟨mode, hentry, hopen⟩

/-- Directories that are made expose nothing. -/
theorem exposes_of_keeps (hkeeps : Disk.Keeps d d') (h : Exposes d' part other) :
    Exposes d part other := by
  obtain ⟨mode, hentry, hopen⟩ := h
  exact ⟨mode, hkeeps.file other part mode hentry, hopen⟩

/-- Only a temporary file that was not made private exposes anything new. -/
theorem Leaves.exposes (h : s.Leaves bytes prepared place d' r)
    (hfree : prepared.entry? place ≠ some .directory) (hexposes : Exposes d' part other) :
    Exposes prepared part other ∨ place = other ∧ (∃ failure, r = .error failure) ∧
      ¬ IsPrivate (prepared.openedMode place) := by
  have hroot := Disk.ne_root hfree
  have hprivate : IsPrivate privateMode := by decide
  cases h with
  | filling first rest failure hbytes =>
    rw [exposes_put_iff hroot] at hexposes
    split at hexposes
    · next hsame => exact Or.inr ⟨hsame, ⟨failure, rfl⟩, hexposes.2⟩
    · exact Or.inl hexposes
  | closed failure =>
    rw [exposes_put_iff hroot] at hexposes
    split at hexposes
    · exact absurd hprivate hexposes.2
    · exact Or.inl hexposes
  | moved htarget hopen =>
    rw [exposes_put_iff (Disk.ne_root hopen)] at hexposes
    split at hexposes
    · exact absurd hprivate hexposes.2
    · exact Or.inl (exposes_of_without hroot hexposes)

/-- Wherever a save ends, what is newly exposed is in its temporary file, and it went wrong. -/
theorem exposes_of_ends (h : d.Ends (s.plan bytes) d' r) (hexposes : Exposes d' part place) :
    Exposes d part place ∨ (∃ failure, r = .error failure) ∧
      d'.locate s.temporaryPath = .ok place ∧ s.Opens d place := by
  rcases ends_plan h with ⟨-, hspreads⟩ |
    ⟨prepared, temporary, hspreads, hprepared, htemporary, hfree, hleaves⟩
  · exact Or.inl (exposes_of_keeps hspreads.toKeeps hexposes)
  · rcases hleaves.exposes hfree hexposes with hbefore | ⟨rfl, hfailure, hopen⟩
    · exact Or.inl (exposes_of_keeps hspreads.toKeeps hbefore)
    · exact Or.inr ⟨hfailure, Disk.locate_of_grows (hleaves.grows hfree) htemporary,
        prepared, hprepared, htemporary, hfree, hopen⟩

/-- Before the temporary file is made private, it exposes all that is saved. -/
theorem exists_exposes (h : s.Opens d place) (bytes : ByteArray) :
    ∃ d' ∈ d.between (s.plan bytes), Exposes d' bytes place := by
  obtain ⟨prepared, hprepared, hplace, hfree, hopen⟩ := h
  refine ⟨prepared.put place (.file bytes (prepared.openedMode place)), ?_,
    prepared.openedMode place, Disk.entry?_put_self _ _ (Disk.ne_root hfree), hopen⟩
  rw [plan_eq, Disk.mem_between_append]
  refine Or.inr ⟨prepared, hprepared, ?_⟩
  rw [between_writing hplace hfree]
  exact List.mem_cons_of_mem _ (List.mem_cons_of_mem _ List.mem_cons_self)

theorem hides_of_ends (h : d.Ends (s.plan bytes) d' r) (hclear : ¬ s.Reveals bytes d) :
    Hides bytes d d' := by
  intro place hexposes
  rcases exposes_of_ends h hexposes with hbefore | ⟨-, -, hopens⟩
  · exact hbefore
  · by_contra hnew
    exact hclear ⟨place, hopens, hnew⟩

theorem exists_not_hides (h : s.Reveals bytes d) :
    ∃ d' ∈ d.between (s.plan bytes), ¬ Hides bytes d d' := by
  obtain ⟨place, hopens, hnew⟩ := h
  obtain ⟨d', hd', hexposes⟩ := exists_exposes hopens bytes
  exact ⟨d', hd', fun hhides ↦ hnew (hhides place hexposes)⟩

/-- Wherever a save ends, nothing is exposed that was not before, but for what is in the temporary
file of a save that went wrong. What is saved is newly exposed neither where the save ends nor
between its steps, if and only if the temporary file does not reveal it. -/
theorem save_exposes_iff (s : Store) (d : Disk) (config : Kubeconfig) :
    (∀ d' r, d.Ends (s.savePlan config) d' r → ∀ part place, Exposes d' part place →
      Exposes d part place ∨ (∃ failure, r = .error failure) ∧
        d'.locate s.temporaryPath = .ok place) ∧
    ((∀ d' r, d.Ends (s.savePlan config) d' r → Hides (Text.encode config.render) d d') ↔
      ¬ s.Reveals (Text.encode config.render) d) ∧
    ((∀ d' ∈ d.between (s.savePlan config), Hides (Text.encode config.render) d d') ↔
      ¬ s.Reveals (Text.encode config.render) d) := by
  refine ⟨fun d' r h part place hexposes ↦ ?_, ⟨fun hends hreveals ↦ ?_, ?_⟩,
    ⟨fun hbetween hreveals ↦ ?_, fun hclear d' hd' ↦ ?_⟩⟩
  · exact (exposes_of_ends h hexposes).imp_right fun ⟨hfailure, hplace, _⟩ ↦ ⟨hfailure, hplace⟩
  · -- What may be found between the steps may also be left for good.
    obtain ⟨d', hd', hlost⟩ := exists_not_hides hreveals
    obtain ⟨r, hr⟩ := Disk.exists_ends_of_mem_between hd'
    exact hlost (hends d' r hr)
  · exact fun hclear d' r h ↦ hides_of_ends h hclear
  · obtain ⟨d', hd', hlost⟩ := exists_not_hides hreveals
    exact hlost (hbetween d' hd')
  · obtain ⟨r, hr⟩ := Disk.exists_ends_of_mem_between hd'
    exact hides_of_ends hr hclear

/-- A kubeconfig that is saved for the first time. -/
def unsaved : Store where
  path := "config"

/-- A kubeconfig with a token in it. -/
def tokened : Kubeconfig where
  users := NameMap.ofList [("admin", { token := some "secret" })]

/-- Between the steps of the save, others may read that token. -/
theorem unsaved_exposed :
    ¬ ∀ d' ∈ ({} : Disk).between (unsaved.savePlan tokened), ∀ place mode,
      d'.entry? place = some (.file (Text.encode tokened.render) mode) → IsPrivate mode := by
  have hopens : unsaved.Opens {} "/config.tmp" := opens_of_none rfl rfl rfl
  obtain ⟨d', hd', mode, hentry, hopen⟩ := exists_exposes hopens (Text.encode tokened.render)
  exact fun hall ↦ hopen (hall d' hd' "/config.tmp" mode hentry)

end Wayfinder.Store
