import Wayfinder.Proofs.Saving

/-!
What work at a desk comes to when all that lies elsewhere is a state: the answer, and the desk and
the state after it. Each way of putting work together has its rule (`AtDesk.result_bind`).
-/

set_option autoImplicit false
set_option relaxedAutoImplicit false

namespace Wayfinder.Files.AtDesk

variable {σ α β : Type}

/-- What work comes to: its answer, and what is at the desk and elsewhere after it. -/
def result (x : AtDesk (StateM σ) α) (s : Desk × σ) : Except Failure α × (Desk × σ) :=
  let r := (x.run.run s.1).run s.2
  (r.1.1, r.1.2, r.2)

@[simp] theorem result_pure (a : α) (s : Desk × σ) :
    result (pure a : AtDesk (StateM σ) α) s = (.ok a, s) := rfl

/-- Work that goes on whether or not the first part of it failed. -/
theorem result_mk_bind (x : AtDesk (StateM σ) α)
    (f : Except Failure α → StateT Desk (StateM σ) (Except Failure β)) (s : Desk × σ) :
    result (ExceptT.mk (x.run >>= f)) s = result (ExceptT.mk (f (result x s).1)) (result x s).2 :=
  rfl

theorem result_bind (x : AtDesk (StateM σ) α) (f : α → AtDesk (StateM σ) β) (s : Desk × σ) :
    result (x >>= f) s =
      match result x s with
      | (.ok a, next) => result (f a) next
      | (.error failure, next) => (.error failure, next) := by
  have hbind : x >>= f = ExceptT.mk (x.run >>= ExceptT.bindCont f) := rfl
  rw [hbind, result_mk_bind]
  rcases result x s with ⟨failure | a, next⟩
  · rfl
  · rfl

@[simp] theorem result_disk (s : Desk × σ) :
    result (disk : AtDesk (StateM σ) Disk) s = (.ok s.1.disk, s) := rfl

@[simp] theorem result_ofExcept (r : Except Failure α) (s : Desk × σ) :
    result (ofExcept r : AtDesk (StateM σ) α) s = (r, s) := rfl

@[simp] theorem result_elsewhere (x : ExceptT Failure (StateM σ) α) (s : Desk × σ) :
    result (elsewhere x) s = ((x.run.run s.2).1, s.1, (x.run.run s.2).2) := rfl

theorem result_follow (plan : List Planned) (s : Desk × σ) :
    result (follow plan : AtDesk (StateM σ) Unit) s =
      ((s.1.disk.after plan).2, (s.1.follow plan).1, s.2) := by
  rw [← (Desk.disk_of_follow s.1 plan).2]
  rfl

theorem exists_of_isOk {x : AtDesk (StateM σ) α} {s : Desk × σ}
    (h : (result x s).1.isOk = true) : ∃ a next, result x s = (.ok a, next) := by
  rcases hresult : result x s with ⟨failure | a, next⟩
  · rw [hresult] at h
    cases h
  · exact ⟨a, next, rfl⟩

end Wayfinder.Files.AtDesk
