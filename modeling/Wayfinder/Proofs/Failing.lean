import Wayfinder.Proofs.Breaking
import Wayfinder.Proofs.Working

/-!
What is left of a file when its plan goes wrong, or is broken off by something outside the tree.
Main statements: a save that fails leaves the octets of the kubeconfig, wherever it ends, exactly if
the temporary file is not the kubeconfig itself and making the directory does not uncover a file at
its path (`Store.ends_keep_iff`). The file of the pointer is written in place, so a write that fails
leaves some of the first octets of the new line or what was there, and only if the file can not be
opened it always leaves that (`Switch.PointerFile.ends_keep_iff`).

Whoever takes the steps of plans is a `Hand`. It follows plans if each of them ends in one of these
ways (`Hand.Follows`), and for every way to fail there is a hand that fails so
(`Hand.follows_breaking`).
-/

set_option autoImplicit false
set_option relaxedAutoImplicit false

namespace Wayfinder

/-! ### Hands -/

namespace Files

namespace Hand

variable {σ : Type}

/-- The steps of plans are taken one after another, but something outside the tree may break one
off; what lies elsewhere is left alone. -/
def Follows (hand : Hand (StateM σ)) : Prop :=
  ∀ plan s, s.1.disk.Ends plan (AtDesk.result (hand plan) s).2.1.disk
    (AtDesk.result (hand plan) s).1 ∧ (AtDesk.result (hand plan) s).2.2 = s.2

/-- The hand of which nothing is broken off. -/
theorem follows_follow : Follows (AtDesk.follow : Hand (StateM σ)) := by
  intro plan s
  rw [AtDesk.result_follow, (Desk.disk_of_follow s.1 plan).1]
  exact ⟨Disk.ends_after s.1.disk plan, rfl⟩

open Classical in
/-- A hand that fails with one plan at one tree, and leaves the given tree then. -/
noncomputable def breaking (plan : List Planned) (d d' : Disk) (failure : Failure) :
    Hand (StateM σ) := fun other ↦
  ExceptT.mk fun desk ↦
    if other = plan ∧ desk.disk = d then pure (.error failure, { desk with disk := d' })
    else (AtDesk.follow other).run desk

variable {plan : List Planned} {d d' : Disk} {failure : Failure}

theorem result_breaking (plan : List Planned) (d' : Disk) (failure : Failure) (s : Desk × σ) :
    AtDesk.result (breaking plan s.1.disk d' failure plan) s =
      (.error failure, { s.1 with disk := d' }, s.2) := by
  have hbroken : (breaking plan s.1.disk d' failure plan).run s.1 =
      (pure (.error failure, { s.1 with disk := d' }) : StateM σ _) := if_pos ⟨rfl, rfl⟩
  rw [AtDesk.result]
  simp only [StateT.run, hbroken]
  rfl

/-- Every end of a plan that went wrong is one with which some hand may fail. -/
theorem follows_breaking (h : d.Ends plan d' (.error failure)) :
    Follows (breaking plan d d' failure : Hand (StateM σ)) := by
  intro other s
  by_cases hsame : other = plan ∧ s.1.disk = d
  · obtain ⟨rfl, rfl⟩ := hsame
    rw [result_breaking]
    exact ⟨h, rfl⟩
  · have hfollow : AtDesk.result (breaking plan d d' failure other) s =
        AtDesk.result (AtDesk.follow other) s := by
      have hrun : (breaking plan d d' failure other).run s.1 =
          (AtDesk.follow other : AtDesk (StateM σ) Unit).run s.1 := if_neg hsame
      rw [AtDesk.result, AtDesk.result]
      simp only [StateT.run, hrun]
    rw [hfollow]
    exact follows_follow other s

end Hand

end Files

/-! ### The kubeconfig -/

namespace Store

open Files

variable {s : Store} {d d' prepared : Disk} {bytes : ByteArray} {place : String}
  {r : Except Failure Unit}

/-- What is in the kubeconfig; none where there is no file at its path. -/
def bytes? (s : Store) (d : Disk) : Option ByteArray := (d.read s.path).toOption

/-- The temporary file is the kubeconfig itself, and can be opened. -/
def Clashes (s : Store) (d : Disk) : Prop :=
  s.temporaryPath = s.path ∧ ∃ prepared place, d.after s.preparing = (prepared, .ok ()) ∧
    prepared.locate s.path = .ok place ∧ prepared.entry? place ≠ some .directory

/-- Making the directory of the kubeconfig, or only one above that, uncovers a file: the path passes
through what is missing, and leads to the file once that is there. -/
def Uncovers (s : Store) (d : Disk) : Prop :=
  s.bytes? d = none ∧ ∃ parent above, Path.parent? s.path = some parent ∧
    Path.Above above parent ∧ s.bytes? (d.take (.makeDirectories above)).1 ≠ none

theorem bytes?_eq_some_iff : s.bytes? d = some bytes ↔
    ∃ place, d.locate s.path = .ok place ∧ d.file? place = some bytes := by
  rw [← Disk.read_eq_ok_iff, bytes?]
  cases d.read s.path with
  | error fault => exact ⟨nofun, nofun⟩
  | ok old => exact ⟨fun h ↦ congrArg Except.ok (Option.some.inj h),
      fun h ↦ congrArg some (Except.ok.inj h)⟩

/-- A file that is put at the place where the path leads is the kubeconfig. -/
theorem bytes?_put_self {mode : Nat} (hplace : d.locate s.path = .ok place)
    (hfree : d.entry? place ≠ some .directory) :
    s.bytes? (d.put place (.file bytes mode)) = some bytes :=
  bytes?_eq_some_iff.2 ⟨place, Disk.locate_of_grows (Disk.grows_put _ hfree) hplace,
    Disk.file?_put_self (Disk.ne_root hfree)⟩

/-- Another file that is put in place leaves the kubeconfig. -/
theorem bytes?_put {mode : Nat} (hplace : d.locate s.path ≠ .ok place)
    (hfree : d.entry? place ≠ some .directory) :
    s.bytes? (d.put place (.file bytes mode)) = s.bytes? d := by
  have hroot := Disk.ne_root hfree
  have hlocate (target : String) :
      (d.put place (.file bytes mode)).locate s.path = .ok target ↔
        d.locate s.path = .ok target :=
    ⟨Disk.locate_of_grows (Disk.grows_of_put_file hroot),
      Disk.locate_of_grows (Disk.grows_put _ hfree)⟩
  refine Option.ext fun old ↦ ?_
  simp only [bytes?_eq_some_iff, hlocate]
  refine exists_congr fun target ↦ and_congr_right fun htarget ↦ ?_
  have hne : place ≠ target := by
    rintro rfl
    exact hplace htarget
  rw [Disk.file?_put _ hroot hne]

/-- The directory of the kubeconfig may be made, or one above it, or none. -/
theorem cases_of_ends_preparing (h : d.Ends s.preparing d' r) :
    d' = d ∨ ∃ parent above, Path.parent? s.path = some parent ∧ Path.Above above parent ∧
      d' = (d.take (.makeDirectories above)).1 := by
  unfold preparing at h
  cases hparent : Path.parent? s.path with
  | none =>
    rw [hparent] at h
    cases h
    exact Or.inl rfl
  | some parent =>
    simp only [hparent] at h
    split at h
    · cases h
      exact Or.inl rfl
    · cases h with
      | taken hmade hrest =>
        cases hrest
        exact Or.inr ⟨parent, parent, rfl, .refl, by rw [hmade]⟩
      | wrong hwrong => exact Or.inr ⟨parent, parent, rfl, .refl, by rw [hwrong]⟩
      | broken fault hbreaks =>
        cases hbreaks with
        | undone => exact Or.inl rfl
        | directories habove => exact Or.inr ⟨parent, _, rfl, habove, rfl⟩

/-- Unless it uncovers a file, making the directory leaves the kubeconfig. -/
theorem bytes?_of_ends_preparing (huncovers : ¬ s.Uncovers d) (h : d.Ends s.preparing d' r) :
    s.bytes? d' = s.bytes? d := by
  cases hbytes : s.bytes? d with
  | none =>
    rcases cases_of_ends_preparing h with rfl | ⟨parent, above, hparent, habove, rfl⟩
    · exact hbytes
    · by_contra hne
      exact huncovers ⟨hbytes, parent, above, hparent, habove, hne⟩
  | some old =>
    have hkeeps := (spreads_of_ends_preparing h).toKeeps
    obtain ⟨place, hplace, hfile⟩ := bytes?_eq_some_iff.1 hbytes
    exact bytes?_eq_some_iff.2
      ⟨place, Disk.locate_of_grows hkeeps.grows hplace, (hkeeps.file?_eq place).trans hfile⟩

/-- A temporary file that is left behind is not the kubeconfig, unless it has the same path. -/
theorem Leaves.bytes?_eq {failure : Failure} (h : s.Leaves bytes prepared place d' (.error failure))
    (hdiffer : s.temporaryPath ≠ s.path) (hplace : prepared.locate s.temporaryPath = .ok place)
    (hfree : prepared.entry? place ≠ some .directory) : s.bytes? d' = s.bytes? prepared := by
  have hpath : prepared.locate s.path ≠ .ok place := fun hpath ↦
    hdiffer (temporaryPath_eq_of_locate hplace hpath hfree)
  cases h with
  | filling => exact bytes?_put hpath hfree
  | closed => exact bytes?_put hpath hfree

/-- If the temporary file is the kubeconfig, every first part of the new octets may be all that is
left in the kubeconfig. -/
theorem Clashes.ends_first {first rest : ByteArray} (h : s.Clashes d)
    (hbytes : first ++ rest = bytes) :
    ∃ d' failure, d.Ends (s.plan bytes) d' (.error failure) ∧ s.bytes? d' = some first := by
  obtain ⟨hsame, prepared, place, hprepared, hpath, hfree⟩ := h
  have hplace : prepared.locate s.temporaryPath = .ok place := hsame ▸ hpath
  obtain ⟨failure, hends⟩ := ends_filling hbytes hprepared hplace hfree
  exact ⟨_, failure, hends, bytes?_put_self hpath hfree⟩

/-- So a save that is broken off may change the kubeconfig: it empties it, or fills an empty one. -/
theorem Clashes.exists_ends (h : s.Clashes d) (hbytes : bytes ≠ ByteArray.empty) :
    ∃ d' failure, d.Ends (s.plan bytes) d' (.error failure) ∧ s.bytes? d' ≠ s.bytes? d := by
  by_cases hempty : s.bytes? d = some ByteArray.empty
  · have hbytes' : bytes ++ ByteArray.empty = bytes := ByteArray.append_empty
    obtain ⟨d', failure, hends, hleft⟩ := h.ends_first hbytes'
    refine ⟨d', failure, hends, fun heq ↦ hbytes (Option.some.inj ?_)⟩
    exact hleft.symm.trans (heq.trans hempty)
  · have hbytes' : ByteArray.empty ++ bytes = bytes := ByteArray.empty_append
    obtain ⟨d', failure, hends, hleft⟩ := h.ends_first hbytes'
    exact ⟨d', failure, hends, fun heq ↦ hempty (heq.symm.trans hleft)⟩

/-- Where the way to the kubeconfig is there, making its directory uncovers nothing. -/
theorem not_uncovers_of_locate (hplace : d.locate s.path = .ok place) : ¬ s.Uncovers d := by
  rintro ⟨hnone, parent, above, -, -, hsome⟩
  have hkeeps := (Disk.spreads_take above d).toKeeps
  obtain ⟨bytes, hbytes⟩ := Option.ne_none_iff_exists'.1 hsome
  obtain ⟨other, hother, hfile⟩ := bytes?_eq_some_iff.1 hbytes
  obtain rfl : place = other :=
    Except.ok.inj ((Disk.locate_of_grows hkeeps.grows hplace).symm.trans hother)
  have hthere := bytes?_eq_some_iff.2 ⟨place, hplace, (hkeeps.file?_eq place).symm.trans hfile⟩
  cases hnone.symm.trans hthere

/-- The directory that uncovers a file stays when the save is broken off behind it, or before. -/
theorem Uncovers.exists_ends (h : s.Uncovers d) (bytes : ByteArray) :
    ∃ d' failure, d.Ends (s.plan bytes) d' (.error failure) ∧ s.bytes? d' ≠ s.bytes? d := by
  obtain ⟨hnone, parent, above, hparent, habove, hsome⟩ := h
  rw [← hnone] at hsome
  have hnonempty : ¬ parent.isEmpty = true := by
    intro hempty
    -- nothing lies above the empty path, and there is nothing to be made at it
    rcases habove.cases_tail with heq | ⟨middle, -, hmiddle⟩
    · rw [← heq, String.isEmpty_iff.1 hempty] at hsome
      exact hsome rfl
    · rw [String.isEmpty_iff.1 hempty] at hmiddle
      cases hmiddle
  have hends : ∃ failure, d.Ends s.preparing (d.take (.makeDirectories above)).1
      (.error failure) := by
    rw [preparing, hparent]
    simp only [if_neg hnonempty]
    exact ⟨_, .broken .denied (.directories habove)⟩
  obtain ⟨failure, hends⟩ := hends
  rw [plan_eq]
  exact ⟨_, failure, hends.append_error, hsome⟩

/-- A save that fails leaves the octets of the kubeconfig, in whatever way it ends, if and only if
its temporary file is not the kubeconfig itself and its directory does not uncover a file. -/
theorem ends_keep_iff (s : Store) (d : Disk) (hbytes : bytes ≠ ByteArray.empty) :
    (∀ d' failure, d.Ends (s.plan bytes) d' (.error failure) → s.bytes? d' = s.bytes? d) ↔
      ¬ s.Clashes d ∧ ¬ s.Uncovers d := by
  constructor
  · intro hkeeps
    refine ⟨fun hclashes ↦ ?_, fun huncovers ↦ ?_⟩
    · obtain ⟨d', failure, hends, hlost⟩ := hclashes.exists_ends hbytes
      exact hlost (hkeeps d' failure hends)
    · obtain ⟨d', failure, hends, hlost⟩ := huncovers.exists_ends bytes
      exact hlost (hkeeps d' failure hends)
  · rintro ⟨hclashes, huncovers⟩ d' failure hends
    rcases ends_cases hends with ⟨-, r', hprepared⟩ |
      ⟨prepared, place, hprepared, hplace, hfree, hleaves⟩
    · exact bytes?_of_ends_preparing huncovers hprepared
    · have hdiffer : s.temporaryPath ≠ s.path := fun hsame ↦
        hclashes ⟨hsame, prepared, place, hprepared, hsame ▸ hplace, hfree⟩
      exact (hleaves.bytes?_eq hdiffer hplace hfree).trans
        (bytes?_of_ends_preparing huncovers (Disk.ends_ok_iff.2 hprepared))

end Store

/-! ### The file of the pointer -/

namespace Switch.PointerFile

open Files

variable {path name place : String} {d d' prepared : Disk} {bytes : ByteArray}
  {r : Except Failure Unit} {failure : Failure}

/-- What may be in the file once a name could not be written to it: what was there before, or some
of the first octets of the line. -/
def Remains (name : String) (before after : Option ByteArray) : Prop :=
  after = before ∨ ∃ first rest, first ++ rest = Text.encode (name ++ "\n") ∧ after = some first

/-- The file can be opened for writing. -/
def Opens (path : String) (d : Disk) : Prop :=
  ∃ prepared place, d.after (preparing path) = (prepared, .ok ()) ∧
    prepared.locate path = .ok place ∧ prepared.entry? place ≠ some .directory

/-- Making the directory of the file leaves what is there, wherever it ends. -/
theorem keeps_of_ends_preparing (h : d.Ends (preparing path) d' r) : Disk.Keeps d d' := by
  unfold preparing at h
  cases hparent : Path.parent? path with
  | none =>
    rw [hparent] at h
    cases h
    exact Disk.Keeps.refl d
  | some parent =>
    rw [hparent] at h
    exact (h.spreads rfl).toKeeps

/-- A write that fails leaves the file alone before it is opened, and some of the first octets in it
after that. -/
theorem cases_of_ends_writing (h : d.Ends (writing path bytes) d' (.error failure)) :
    d' = d ∨ ∃ place part more, d.locate path = .ok place ∧ d.entry? place ≠ some .directory ∧
      part ++ more = bytes ∧ d' = d.put place (.file part (d.openedMode place)) := by
  rcases Disk.Ends.of_opening h with ⟨-, hclosed⟩ | ⟨place, hplace, hfree, hopen⟩
  · exact Or.inl hclosed
  · rcases hopen with ⟨-, part, more, -, hbytes, hleft⟩ | h
    · exact Or.inr ⟨place, part, more, hplace, hfree, hbytes, hleft⟩
    · cases h

theorem remains_of_ends (hpath : ∀ (d : Disk) (other : String), d.locate path = .ok other →
      other = place) (h : d.Ends (plan path name) d' (.error failure)) :
    Remains name (d.file? place) (d'.file? place) := by
  rw [plan_eq] at h
  rcases h.of_append with ⟨failure', -, hprepared⟩ | ⟨prepared, hprepared, hwriting⟩
  · exact Or.inl ((keeps_of_ends_preparing hprepared).file?_eq place)
  · have hkeeps := keeps_of_ends_preparing (Disk.ends_ok_iff.2 hprepared)
    rcases cases_of_ends_writing hwriting with rfl | ⟨other, part, more, hother, hfree, hbytes, rfl⟩
    · exact Or.inl (hkeeps.file?_eq place)
    · obtain rfl := hpath prepared other hother
      exact Or.inr ⟨part, more, hbytes, Disk.file?_put_self (Disk.ne_root hfree)⟩

/-- Once the file can be opened, every first part of the line may be all that is left in it. -/
theorem exists_ends {first rest : ByteArray} (hbytes : first ++ rest = Text.encode (name ++ "\n"))
    (hprepared : d.after (preparing path) = (prepared, .ok ()))
    (hplace : prepared.locate path = .ok place)
    (hfree : prepared.entry? place ≠ some .directory) :
    ∃ d' failure, d.Ends (plan path name) d' (.error failure) ∧ d'.file? place = some first := by
  obtain ⟨failure, hends⟩ := Disk.ends_opening hbytes hplace hfree
  exact ⟨_, failure, .append hprepared hends, Disk.file?_put_self (Disk.ne_root hfree)⟩

theorem encode_line_ne_empty (name : String) : Text.encode (name ++ "\n") ≠ ByteArray.empty := by
  intro hempty
  have hdecode := Text.decode_encode (name ++ "\n")
  rw [hempty] at hdecode
  have hline := congrArg String.toList (Option.some.inj hdecode)
  rw [String.toList_append] at hline
  exact List.cons_ne_nil _ _ (List.append_eq_nil_iff.1 hline.symm).2

/-- A write that fails leaves what was in the file, in whatever way it ends, if and only if the file
can not be opened. -/
theorem ends_keep_iff (name : String)
    (hpath : ∀ (d : Disk) (other : String), d.locate path = .ok other → other = place) (d : Disk) :
    (∀ d' failure, d.Ends (plan path name) d' (.error failure) → d'.file? place = d.file? place) ↔
      ¬ Opens path d := by
  constructor
  · rintro hkeeps ⟨prepared, other, hprepared, hother, hfree⟩
    obtain rfl := hpath prepared other hother
    obtain ⟨d', failure, hends, hfile⟩ :=
      exists_ends ByteArray.empty_append hprepared hother hfree
    obtain ⟨d'', failure', hends', hfile'⟩ :=
      exists_ends ByteArray.append_empty hprepared hother hfree
    have hboth := (hkeeps _ _ hends).trans (hkeeps _ _ hends').symm
    rw [hfile, hfile'] at hboth
    exact encode_line_ne_empty name (Option.some.inj hboth).symm
  · intro hclosed d' failure h
    rw [plan_eq] at h
    rcases h.of_append with ⟨failure', -, hprepared⟩ | ⟨prepared, hprepared, hwriting⟩
    · exact (keeps_of_ends_preparing hprepared).file?_eq place
    · rcases cases_of_ends_writing hwriting with rfl | ⟨other, -, -, hother, hfree, -⟩
      · exact (keeps_of_ends_preparing (Disk.ends_ok_iff.2 hprepared)).file?_eq place
      · exact absurd ⟨prepared, other, hprepared, hother, hfree⟩ hclosed

end Switch.PointerFile

end Wayfinder
