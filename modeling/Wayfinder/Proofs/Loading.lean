import Wayfinder.Proofs.Saving

/-!
What is read after a save. Main statement: a kubeconfig that is saved is the next one to be loaded
(`Store.load_of_savePlan_ok`). The text of a kubeconfig is never blank, so it is never taken for that
of an empty one.
-/

set_option autoImplicit false
set_option relaxedAutoImplicit false

namespace Wayfinder

theorem Text.any_not_stripWhile {α : Type} (p : α → Bool) (l : List α) :
    (Text.stripWhile p l).any (fun a ↦ !p a) = l.any fun a ↦ !p a := by
  rw [Text.stripWhile, Text.dropEndWhile, List.any_reverse, List.any_dropWhile,
    List.not_all_eq_any_not, List.any_reverse, List.any_dropWhile, List.not_all_eq_any_not]

theorem Text.trim_ne_empty {text : String} {c : Char} (hc : c ∈ text.toList)
    (hblank : Text.isBlank c = false) : (Text.trim text).isEmpty = false := by
  have hany : text.toList.any (fun c ↦ !Text.isBlank c) = true :=
    List.any_eq_true.2 ⟨c, hc, by simp [hblank]⟩
  rw [← Text.any_not_stripWhile] at hany
  obtain ⟨other, hother, -⟩ := List.any_eq_true.1 hany
  rw [← Bool.not_eq_true, String.isEmpty_iff, Text.trim]
  intro hempty
  rw [← String.toList_ofList (l := Text.stripWhile _ _), hempty] at hother
  cases hother

theorem Yaml.colon_mem_of_mem_entryParts {n : Nat} {entries : List (Value × Value)} {part : String}
    (h : part ∈ Yaml.entryParts n entries) : ':' ∈ part.toList := by
  induction entries with
  | nil => simp [Yaml.entryParts] at h
  | cons entry rest ih =>
    obtain ⟨key, value⟩ := entry
    rw [Yaml.entryParts] at h
    rcases List.mem_cons.1 h with rfl | hrest
    · cases Yaml.simpleKey? key <;> simp
    · exact ih hrest

theorem Yaml.subset_closeLine (s : String) : s.toList ⊆ (Yaml.closeLine s).toList := by
  intro c hc
  unfold Yaml.closeLine
  split
  · exact hc
  · simp [hc]

theorem Yaml.mem_block {n : Nat} {parts : List String} {part : String} {c : Char}
    (hpart : part ∈ parts) (hc : c ∈ part.toList) : c ∈ (Yaml.block n parts).toList := by
  rw [Yaml.block, String.toList_join, List.mem_flatMap]
  refine ⟨_, List.mem_map_of_mem hpart, ?_⟩
  rw [String.toList_append, List.mem_append]
  exact Or.inr (Yaml.subset_closeLine part hc)

theorem Yaml.colon_mem_render {entries : List (Value × Value)} (h : entries ≠ []) :
    ':' ∈ (Yaml.render (.mapping entries)).toList := by
  cases entries with
  | nil => exact absurd rfl h
  | cons entry rest =>
    obtain ⟨part, hpart⟩ : ∃ part, part ∈ Yaml.entryParts 0 (entry :: rest) :=
      ⟨_, by rw [Yaml.entryParts]; exact List.mem_cons_self⟩
    rw [Yaml.render]
    exact Yaml.mem_block hpart (Yaml.colon_mem_of_mem_entryParts hpart)

namespace Kubeconfig

/-- What is written for the kubeconfig is read as the kubeconfig itself. -/
def ReadsBack (config : Kubeconfig) : Prop := parse? config.render = some config

instance (config : Kubeconfig) : Decidable config.ReadsBack :=
  inferInstanceAs (Decidable (parse? config.render = some config))

theorem render_not_blank (config : Kubeconfig) : (Text.trim config.render).isEmpty = false := by
  refine Text.trim_ne_empty (c := ':') ?_ (by decide)
  exact Yaml.colon_mem_render (by simp [member])

end Kubeconfig

namespace Store

open Files

variable {s : Store} {d d' : Disk} {config : Kubeconfig}

theorem load_of_read (hread : d.read s.path = .ok (Text.encode config.render))
    (hback : config.ReadsBack) : s.load d = .ok config := by
  have hholds : d.holds s.path = true := by
    unfold Disk.read at hread
    unfold Disk.holds
    cases hlook : d.look s.path with
    | error fault => simp [hlook] at hread
    | ok entry => rfl
  unfold Kubeconfig.ReadsBack at hback
  simp only [load, hholds, Bool.not_true, Bool.false_eq_true, if_false, Disk.readText, hread,
    Text.decode_encode, config.render_not_blank, hback]

/-- A save that goes right is what is loaded next, if it can be read back. -/
theorem load_of_savePlan_ok (hback : config.ReadsBack)
    (h : d.after (s.savePlan config) = (d', .ok ())) : s.load d' = .ok config :=
  load_of_read (read_of_plan_ok h) hback

theorem load_of_look (h : d'.look s.path = d.look s.path) : s.load d' = s.load d := by
  have hholds : d'.holds s.path = d.holds s.path := by rw [Disk.holds, Disk.holds, h]
  have hread : d'.read s.path = d.read s.path := by rw [Disk.read, Disk.read, h]
  have htext : d'.readText s.path = d.readText s.path := by rw [Disk.readText, Disk.readText, hread]
  rw [load, load, hholds, htext]

/-- A kubeconfig that is there is left by a save that goes wrong. -/
theorem load_of_savePlan_error {failure : Failure} {loaded : Kubeconfig}
    (hloaded : s.load d = .ok loaded) (hholds : d.holds s.path = true)
    (h : d.after (s.savePlan config) = (d', .error failure)) :
    s.load d' = .ok loaded ∧ d'.holds s.path = true := by
  have hlook : d'.look s.path = d.look s.path := by
    cases hentry : d.look s.path with
    | error fault => simp [Disk.holds, hentry] at hholds
    | ok entry =>
      cases entry with
      | directory => simp [load, hholds, Disk.readText, Disk.read, hentry] at hloaded
      | file old mode => exact look_of_plan_error hentry h
  refine ⟨(load_of_look hlook).trans hloaded, ?_⟩
  rwa [Disk.holds, hlook]

end Store

end Wayfinder
