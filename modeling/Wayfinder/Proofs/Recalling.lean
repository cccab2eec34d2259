import Wayfinder.Proofs.AllOrNothing
import Wayfinder.Proofs.Stalling

/-!
What a pointer file recalls. Main statement: a name that was written to the file is read from it
again exactly when there is no white space at either end of it, and exactly such a name leads back
to the context that a write switched away from (`recalls_iff_isTrim`).

The file ends a name with a line break and takes off all white space when it is read, not only that
line break (`Text.trim_newline`), so what it recalls is the name without white space at its ends.
For the way back, a context that carries neither canonical name keeps its name in a merge, and is
what the merge says leads back (`merge_leads_back`).
-/

set_option autoImplicit false
set_option relaxedAutoImplicit false

namespace Wayfinder

namespace Text

/-! ### Texts without white space at their ends -/

/-- A text without white space at either end. -/
def IsTrim (s : String) : Prop :=
  (∀ c, s.toList.head? = some c → isBlank c = false) ∧
    ∀ c, s.toList.getLast? = some c → isBlank c = false

theorem stripWhile_eq_self_iff {α : Type} (p : α → Bool) (l : List α) :
    stripWhile p l = l ↔
      (∀ a, l.head? = some a → p a = false) ∧ ∀ a, l.getLast? = some a → p a = false := by
  rw [← dropWhile_eq_self_iff_head?, ← dropEndWhile_eq_self_iff, stripWhile]
  constructor
  · intro h
    -- neither end can give way when the whole is as long as before
    have hle : (dropEndWhile p (l.dropWhile p)).length ≤ (l.dropWhile p).length := by
      have hreverse := (List.dropWhile_suffix (l := (l.dropWhile p).reverse) p).length_le
      rwa [List.length_reverse, ← List.length_reverse] at hreverse
    rw [h] at hle
    have hsuffix := List.dropWhile_suffix (l := l) p
    have hdrop : l.dropWhile p = l := hsuffix.eq_of_length (Nat.le_antisymm hsuffix.length_le hle)
    rw [hdrop] at h
    exact ⟨hdrop, h⟩
  · rintro ⟨hdrop, hdropEnd⟩
    rw [hdrop, hdropEnd]

theorem stripWhile_append_singleton {α : Type} {p : α → Bool} {a : α} (ha : p a = true)
    (l : List α) : stripWhile p (l ++ [a]) = stripWhile p l := by
  have hlast : ∀ l : List α, dropEndWhile p (l ++ [a]) = dropEndWhile p l := fun l ↦ by
    rw [dropEndWhile, List.reverse_append, List.reverse_singleton, List.singleton_append,
      List.dropWhile_cons, if_pos ha, dropEndWhile]
  rw [stripWhile, stripWhile, List.dropWhile_append]
  split
  · next hnone =>
    rw [List.isEmpty_iff.1 hnone, List.dropWhile_cons, if_pos ha]
    rfl
  · exact hlast _

theorem trim_eq_self_iff {s : String} : trim s = s ↔ IsTrim s := by
  rw [IsTrim, ← stripWhile_eq_self_iff, trim]
  constructor
  · intro h
    rw [← String.toList_ofList (l := stripWhile isBlank s.toList), h]
  · intro h
    rw [h, String.ofList_toList]

instance (s : String) : Decidable (IsTrim s) := decidable_of_iff _ trim_eq_self_iff

theorem trim_newline (s : String) : trim (s ++ "\n") = trim s := by
  have hlist : (s ++ "\n").toList = s.toList ++ ['\n'] := by rw [String.toList_append]; rfl
  rw [trim, hlist, stripWhile_append_singleton (by decide), trim]

end Text

namespace Files

theorem Desk.warnings_follow (d : Desk) (plan : List Planned) :
    (d.follow plan).1.warnings = d.warnings := by
  induction plan generalizing d with
  | nil => rfl
  | cons planned rest ih =>
    rw [follow]
    have htake : (d.take planned.step).1.warnings = d.warnings := rfl
    rcases hstep : d.take planned.step with ⟨next, fault | _⟩
    · rw [hstep] at htake
      exact (ih next).trans htake
    · rw [hstep] at htake
      exact htake

end Files

namespace Switch

open Files Kubeconfig

/-! ### Reading what was written -/

namespace PointerFile

variable {σ : Type} {path name : String} {s next : Desk × σ}

theorem nameIn_newline (name : String) : nameIn (name ++ "\n") = nameIn name := by
  rw [nameIn, nameIn, Text.trim_newline]

theorem nameIn_eq_self_iff (hname : name ≠ "") : nameIn name = some name ↔ Text.IsTrim name := by
  rw [← Text.trim_eq_self_iff, nameIn]
  constructor
  · intro h
    by_cases hempty : (Text.trim name).isEmpty = true
    · simp [hempty] at h
    · simpa [hempty] using h
  · intro h
    simp [h, hname]

/-- The name that was written last is read without white space at its ends. -/
theorem result_read_of_write
    (h : AtDesk.result ((pointer path : Pointer (StateT Desk (StateM σ))).write name) s =
      (.ok (), next)) :
    AtDesk.result (pointer path : Pointer (StateT Desk (StateM σ))).read next =
      (.ok (nameIn name), next) := by
  rw [pointer, pointerBy, AtDesk.result_follow] at h
  obtain ⟨hanswer, rfl⟩ := Prod.mk.inj h
  have hdisk := (Desk.disk_of_follow s.1 (plan path name)).1
  have hread :
      (s.1.follow (plan path name)).1.disk.read path = .ok (Text.encode (name ++ "\n")) := by
    rw [hdisk]
    exact read_of_plan_ok (Prod.ext rfl hanswer)
  rw [pointer, pointerBy, AtDesk.result_bind, AtDesk.result_disk]
  simp only [AtDesk.result_ofExcept, read, Disk.readText, hread, Text.decode_encode,
    nameIn_newline]

end PointerFile

/-! ### The way back -/

variable {dest source : Kubeconfig} {name preferred : String} {outcome : Outcome}

/-- What a merge says leads back is the context that was current, under the name that it had, unless
that is one of the canonical names. -/
theorem merge_leads_back (hpreferred : preferred ≠ "")
    (hmerge : merge dest source name preferred = .ok outcome) (hcurrent : dest.current ≠ "")
    (hnow : dest.current ≠ preferred) (hbefore : dest.current ≠ previousName preferred) :
    outcome.last = dest.current ∧ outcome.config.contexts.contains dest.current = true ∧
      CurrentExists outcome.config := by
  obtain ⟨target, htarget, -⟩ := bind_eq_ok hmerge
  obtain ⟨contexts, new, -, -, hkept⟩ := prepare_contexts (previousName preferred) target dest
  rw [NameMap.aside_of_ne hbefore] at hkept
  rw [merge_eq_activate htarget] at hmerge
  obtain ⟨hprevious, hexists⟩ := exists_of_activate hmerge
  obtain ⟨hrenames, hturned, hlast⟩ := activate_ok hpreferred hmerge
  have hexchanged : ¬ (previousName preferred ≠ previousName preferred ∨
      (prepare (previousName preferred) target dest).current = previousName preferred) := by
    rw [hkept, not_or, not_not]
    exact ⟨rfl, hbefore⟩
  rw [turned_of_exchanged hexchanged] at hrenames hturned hlast
  have hfound : ∀ other, (prepare (previousName preferred) target dest).contexts.contains other →
      outcome.config.contexts.contains (swapNames preferred (previousName preferred) other) := by
    intro other hother
    rw [NameMap.contains_iff_mem_names] at hother ⊢
    rw [hrenames.names.mem_iff]
    exact List.mem_map_of_mem hother
  have hdest : (prepare (previousName preferred) target dest).contexts.contains dest.current := by
    rw [← hkept]
    exact hexists.resolve_left fun hempty ↦ hcurrent (hkept.symm.trans hempty)
  refine ⟨?_, ?_, Or.inr ?_⟩
  · rw [hlast, hkept, swapNames_of_ne hnow hbefore]
  · have hthere := hfound _ hdest
    rwa [swapNames_of_ne hnow hbefore] at hthere
  · rw [hturned]
    exact hfound _ hprevious

/-- Making any other context than one of another name current leads to another context. -/
theorem current_ne_of_activate {config : Kubeconfig} {recalled : String}
    (hpreferred : preferred ≠ "") (h : activate config recalled preferred = .ok outcome)
    (hname : recalled ≠ name) (hnow : name ≠ preferred) : outcome.config.current ≠ name := by
  obtain ⟨-, hturned, -⟩ := activate_ok hpreferred h
  rw [hturned]
  by_cases hstays : recalled ≠ previousName preferred ∨ config.current = recalled
  · rw [turned_of_stays hstays]
    exact hname
  · rw [turned_of_exchanged hstays]
    rw [not_or, not_not] at hstays
    rw [hstays.1, swapNames_right]
    exact hnow.symm

namespace Committer

variable {σ : Type} {c : Committer (StateM σ)} {path : String} {s next : Desk × σ}

/-- Switching back goes right and makes the context of a name current, also in the file. -/
def LeadsBack (c : Committer (StateM σ)) (s : Desk × σ) (name : String) : Prop :=
  ∃ restored last, AtDesk.result c.swap s = (.ok restored, last) ∧ restored.current = name ∧
    (restored.ReadsBack → c.store.load last.1.disk = .ok restored)

/-- A commit without a warning gave the name that leads back to the pointer. -/
theorem write_of_commit (hpointer : c.pointer = PointerFile.pointer path)
    (h : AtDesk.result (c.commit outcome) s = (.ok (), next))
    (hquiet : next.1.warnings = s.1.warnings) :
    ∃ saved, AtDesk.result (c.pointer.write outcome.last) saved = (.ok (), next) := by
  obtain ⟨-, hrecorded⟩ := result_commit_ok_iff.1 h
  refine ⟨((s.1.follow (c.store.savePlan outcome.config)).1, s.2), ?_⟩
  rcases record_cases c outcome.last ((s.1.follow (c.store.savePlan outcome.config)).1, s.2) with
    ⟨written, hwrite, hrecord⟩ | ⟨failure, written, warning, hwrite, hrecord⟩
  · obtain ⟨-, rfl⟩ := Prod.mk.inj (hrecord.symm.trans hrecorded)
    exact hwrite
  · obtain ⟨-, rfl⟩ := Prod.mk.inj (hrecord.symm.trans hrecorded)
    rw [hpointer, PointerFile.pointer, PointerFile.pointerBy, AtDesk.result_follow] at hwrite
    obtain ⟨-, rfl⟩ := Prod.mk.inj hwrite
    -- the warning that was given is one more than there were
    have hmore := congrArg List.length hquiet
    simp [Desk.warn, Desk.warnings_follow] at hmore

/-- A swap that goes right commits what making the recalled context current came to. -/
theorem swap_ok {restored : Kubeconfig} {last : Desk × σ}
    (h : AtDesk.result c.swap s = (.ok restored, last)) :
    ∃ name file outcome found, AtDesk.result c.pointer.read s = (.ok (some name), found) ∧
      c.store.load found.1.disk = .ok file ∧ activate file name c.preferred = .ok outcome ∧
      AtDesk.result (c.commit outcome) found = (.ok (), last) ∧ restored = outcome.config := by
  rw [swap, result_swapBy] at h
  rcases hread : AtDesk.result c.pointer.read s with ⟨failure | _ | name, found⟩
  · simp [hread] at h
  · simp [hread] at h
  · simp only [hread, result_restoreBy] at h
    cases hload : c.store.load found.1.disk with
    | error failure => simp [hload] at h
    | ok file =>
      cases hactivate : activate file name c.preferred with
      | error failure => simp [hload, hactivate] at h
      | ok outcome =>
        simp only [hload, hactivate] at h
        rcases hcommit : AtDesk.result (c.commitBy AtDesk.follow outcome) found with
          ⟨failure | _, next⟩
        · simp [hcommit] at h
        · simp only [hcommit, Prod.mk.injEq, Except.ok.injEq] at h
          obtain ⟨rfl, rfl⟩ := h
          exact ⟨name, file, outcome, found, rfl, hload, hactivate, hcommit, rfl⟩

/-- Of a context that can be made current, switching back makes it current exactly when its name is
the one recalled and the kubeconfig can be saved. -/
theorem leadsBack_iff {config : Kubeconfig} {name : String} {recalled : Option String}
    (hpreferred : c.preferred ≠ "") (hspares : c.SparesKubeconfig)
    (hread : AtDesk.result c.pointer.read s = (.ok recalled, s))
    (hload : c.store.load s.1.disk = .ok config) (hcurrent : CurrentExists config)
    (hname : config.contexts.contains name = true) (hnow : name ≠ c.preferred)
    (hbefore : name ≠ previousName c.preferred) :
    c.LeadsBack s name ↔ recalled = some name ∧
      (s.1.disk.after (c.store.savePlan { config with current := name })).2 = .ok () := by
  have hactivate : activate config name c.preferred =
      .ok { config := { config with current := name }, last := config.current } := by
    rw [activate_of_exists hname hcurrent, if_pos (Or.inl hbefore)]
  constructor
  · rintro ⟨restored, last, hswap, hrestored, -⟩
    obtain ⟨other, file, outcome, found, hfound, hfile, hother, hcommit, rfl⟩ := swap_ok hswap
    obtain ⟨hrecalled, rfl⟩ := Prod.mk.inj (hread.symm.trans hfound)
    obtain rfl := Except.ok.inj hrecalled
    obtain rfl : file = config := Except.ok.inj (hfile.symm.trans hload)
    obtain rfl : other = name := by
      by_contra hne
      exact current_ne_of_activate hpreferred hother hne hnow hrestored
    obtain rfl := Except.ok.inj (hactivate.symm.trans hother)
    exact ⟨rfl, (result_commit_ok_iff.1 hcommit).1⟩
  · rintro ⟨rfl, hsaved⟩
    obtain ⟨last, hrecord, -⟩ := exists_record c config.current
      ((s.1.follow (c.store.savePlan { config with current := name })).1, s.2)
    have hcommit : AtDesk.result (c.commit
        { config := { config with current := name }, last := config.current }) s = (.ok (), last) :=
      result_commit_ok_iff.2 ⟨hsaved, hrecord⟩
    have hloads := load_of_commit hspares hcommit
    refine ⟨{ config with current := name }, last, ?_, rfl, hloads⟩
    rw [commit] at hcommit
    rw [swap, result_swapBy, hread]
    simp only [result_restoreBy, hload, hactivate, hcommit]

/-- A name that was written to a pointer file is read from it without the white space at its ends,
so it is read as it was written exactly when it has none there. After a write that switched away
from a context without a canonical name, and gave no warning that the pointer could not be written,
switching back leads to that context exactly when its name is such a one, unless the kubeconfig can
not be saved. What was saved is taken to be read back as it was. -/
theorem recalls_iff_isTrim (c : Committer (StateM σ)) (path : String)
    (hpointer : c.pointer = PointerFile.pointer path) (hspares : c.SparesKubeconfig)
    (hpreferred : c.preferred ≠ "") :
    (∀ name s next, name ≠ "" → AtDesk.result (c.pointer.write name) s = (.ok (), next) →
      AtDesk.result c.pointer.read next = (.ok (PointerFile.nameIn name), next) ∧
        (PointerFile.nameIn name = some name ↔ Text.IsTrim name)) ∧
    ∀ (config file : Kubeconfig) (s next : Desk × σ), c.store.load s.1.disk = .ok file →
      file.current ≠ "" → file.current ≠ c.preferred → file.current ≠ previousName c.preferred →
      AtDesk.result (c.write config) s = (.ok (), next) → next.1.warnings = s.1.warnings →
      ∃ outcome, merge file config config.current c.preferred = .ok outcome ∧
        (outcome.config.ReadsBack →
          (c.LeadsBack next file.current ↔ Text.IsTrim file.current ∧
            (next.1.disk.after
              (c.store.savePlan { outcome.config with current := file.current })).2 = .ok ())) := by
  have hrecalls : ∀ name s next, AtDesk.result (c.pointer.write name) s = (.ok (), next) →
      AtDesk.result c.pointer.read next = (.ok (PointerFile.nameIn name), next) := by
    rw [hpointer]
    exact fun _ _ _ ↦ PointerFile.result_read_of_write
  constructor
  · exact fun name s next hname hwrite ↦
      ⟨hrecalls name s next hwrite, PointerFile.nameIn_eq_self_iff hname⟩
  · intro config file s next hload hcurrent hnow hbefore hwrite hquiet
    rcases commit_of_write hload hwrite with
      ⟨hidle, -⟩ | ⟨outcome, verified, hmerge, hdesk, hcommit⟩
    · exact absurd (isCurrent_iff.1 hidle).1 hnow
    · refine ⟨outcome, hmerge, fun hback ↦ ?_⟩
      obtain ⟨hlast, hthere, hexists⟩ := merge_leads_back hpreferred hmerge hcurrent hnow hbefore
      obtain ⟨saved, hrecorded⟩ := write_of_commit hpointer hcommit (by rw [hquiet, hdesk])
      rw [hlast] at hrecorded
      rw [leadsBack_iff hpreferred hspares (hrecalls _ _ _ hrecorded)
        (load_of_commit hspares hcommit hback) hexists hthere hnow hbefore,
        PointerFile.nameIn_eq_self_iff hcurrent]

theorem eq_ok_of_isOk {answer : Except Failure Unit} (h : answer.isOk = true) :
    answer = .ok () := by
  cases answer with
  | error failure => cases h
  | ok => rfl

/-- A kubeconfig with one context, which refers to nothing. -/
def lodged (name : String) : Kubeconfig where
  contexts := NameMap.ofList [(name, {})]
  current := name

/-- The files, with that kubeconfig. -/
def lodging (name : String) : Desk × Unit :=
  ({ disk := ({} : Disk).put "/k" (.file (Text.encode (lodged name).render) usualMode) }, ())

/-- What a switch away from the context comes to. -/
def leaving (name : String) : Except Failure Unit × (Desk × Unit) :=
  AtDesk.result (filed.write (served "s")) (lodging name)

theorem load_lodging (name : String) (hback : (lodged name).ReadsBack) :
    filed.store.load (lodging name).1.disk = .ok (lodged name) := by
  have hplace : (lodging name).1.disk.locate filed.store.path = .ok "/k" := rfl
  have hentry : (lodging name).1.disk.entry? "/k" =
      some (.file (Text.encode (lodged name).render) usualMode) :=
    Disk.entry?_put_self _ _ (by decide)
  have hread : (lodging name).1.disk.read filed.store.path =
      .ok (Text.encode (lodged name).render) := by
    rw [Disk.read, Disk.look_eq_ok_iff.2 ⟨_, hplace, hentry⟩]
  exact Store.load_of_read hread hback

theorem readsBack_leaving {outcome : Outcome}
    (h : merge (lodged "kind") (served "s") (served "s").current filed.preferred = .ok outcome) :
    outcome.config.ReadsBack := by
  have hchecked : (merge (lodged "kind") (served "s") (served "s").current
      filed.preferred).toOption.all (fun outcome ↦ decide outcome.config.ReadsBack) = true := by
    decide +kernel
  rw [h] at hchecked
  exact of_decide_eq_true hchecked

/-- A name without white space, and the way back to its context. -/
theorem recalls_iff_isTrim_kind :
    filed.pointer = PointerFile.pointer "/p" ∧ filed.SparesKubeconfig ∧ filed.preferred ≠ "" ∧
      filed.store.load (lodging "kind").1.disk = .ok (lodged "kind") ∧
      leaving "kind" = (.ok (), (leaving "kind").2) ∧
      (leaving "kind").2.1.warnings = (lodging "kind").1.warnings ∧ Text.IsTrim "kind" ∧
      (∃ next, AtDesk.result (filed.pointer.write "kind") (lodging "kind") = (.ok (), next) ∧
        AtDesk.result filed.pointer.read next = (.ok (some "kind"), next)) ∧
      filed.LeadsBack (leaving "kind").2 "kind" := by
  have hload := load_lodging "kind" (by decide +kernel)
  have hleaving := result_write hload (served "s")
  have hpreferred : filed.preferred ≠ "" := by decide
  have htrim : Text.IsTrim "kind" := by decide
  have hcurrent : (lodged "kind").current ≠ "" := by decide
  have hnow : (lodged "kind").current ≠ filed.preferred := by decide
  have hbefore : (lodged "kind").current ≠ previousName filed.preferred := by decide
  obtain ⟨hok, hquiet⟩ : (leaving "kind").1.isOk = true ∧ (leaving "kind").2.1.warnings = [] := by
    rw [leaving, hleaving]
    decide +kernel
  have hwrite : leaving "kind" = (.ok (), (leaving "kind").2) :=
    Prod.ext (eq_ok_of_isOk hok) rfl
  have hsaves : (merge (lodged "kind") (served "s") (served "s").current
      filed.preferred).toOption.all (fun outcome ↦ ((leaving "kind").2.1.disk.after
        (filed.store.savePlan { outcome.config with current := "kind" })).2.isOk) = true := by
    rw [leaving, hleaving]
    decide +kernel
  have hwritten : (AtDesk.result (filed.pointer.write "kind") (lodging "kind")).1.isOk = true := by
    rw [filed, filedBy, PointerFile.pointerBy, AtDesk.result_follow]
    decide +kernel
  obtain ⟨hread, hback⟩ := recalls_iff_isTrim filed "/p" rfl spares_filed hpreferred
  obtain ⟨outcome, hmerge, hreturns⟩ := hback (served "s") (lodged "kind") (lodging "kind") _ hload
    hcurrent hnow hbefore hwrite hquiet
  simp only [hmerge, Except.toOption, Option.all_some] at hsaves
  have hkept : AtDesk.result (filed.pointer.write "kind") (lodging "kind") =
      (.ok (), (AtDesk.result (filed.pointer.write "kind") (lodging "kind")).2) :=
    Prod.ext (eq_ok_of_isOk hwritten) rfl
  obtain ⟨hrecalled, hsame⟩ := hread "kind" _ _ (by decide) hkept
  rw [hsame.2 htrim] at hrecalled
  exact ⟨rfl, spares_filed, hpreferred, hload, hwrite, hquiet, htrim,
    ⟨_, hkept, hrecalled⟩, (hreturns (readsBack_leaving hmerge)).2 ⟨htrim, eq_ok_of_isOk hsaves⟩⟩

/-- The name of a context that begins with a space is recalled without it, and does not lead back.
-/
theorem recalls_without_space :
    filed.store.load (lodging " kind").1.disk = .ok (lodged " kind") ∧
      leaving " kind" = (.ok (), (leaving " kind").2) ∧
      (leaving " kind").2.1.warnings = (lodging " kind").1.warnings ∧
      AtDesk.result filed.pointer.read (leaving " kind").2 =
        (.ok (some "kind"), (leaving " kind").2) ∧
      ¬ filed.LeadsBack (leaving " kind").2 " kind" := by
  have hload := load_lodging " kind" (by decide +kernel)
  have hleaving := result_write hload (served "s")
  obtain ⟨hok, hquiet, hrecalled⟩ : (leaving " kind").1.isOk = true ∧
      (leaving " kind").2.1.warnings = [] ∧
      (AtDesk.result filed.pointer.read (leaving " kind").2).1.toOption = some (some "kind") := by
    rw [leaving, hleaving]
    decide +kernel
  have hkeeps : ∀ s, (AtDesk.result filed.pointer.read s).2 = s := fun _ ↦ rfl
  have hread : AtDesk.result filed.pointer.read (leaving " kind").2 =
      (.ok (some "kind"), (leaving " kind").2) :=
    Prod.ext (toOption_eq_some_iff.1 hrecalled) (hkeeps _)
  refine ⟨hload, Prod.ext (eq_ok_of_isOk hok) rfl, hquiet, hread, ?_⟩
  rintro ⟨restored, last, hswap, hrestored, -⟩
  obtain ⟨other, file, outcome, found, hfound, -, hother, -, rfl⟩ := swap_ok hswap
  obtain ⟨hsame, rfl⟩ := Prod.mk.inj (hread.symm.trans hfound)
  cases hsame
  exact current_ne_of_activate (by decide) hother (by decide) (by decide) hrestored

end Committer

end Switch

end Wayfinder
