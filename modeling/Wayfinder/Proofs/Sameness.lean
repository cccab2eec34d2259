import Wayfinder.Switch.Merge

/-!
Equality of the parts of a kubeconfig is transitive, in the sense in which zeros are one number and
the order of a mapping's entries does not count. Main statement: what is the same target as a second
one, and that as a third, is the same target as the third (`sameTarget_trans`).
-/

set_option autoImplicit false
set_option relaxedAutoImplicit false

namespace Wayfinder

/-- A test for equality that is transitive. -/
def IsTransitive {α : Type} (same : α → α → Bool) : Prop :=
  ∀ a b c, same a b = true → same b c = true → same a c = true

/-! ### Values -/

theorem Binary64.same_trans {x y z : Binary64} (hxy : x.same y = true) (hyz : y.same z = true) :
    x.same z = true := by
  simp only [Binary64.same, Bool.or_eq_true, Bool.and_eq_true, Bool.not_eq_true', beq_iff_eq]
    at hxy hyz ⊢
  rcases hxy with ⟨hx, hy⟩ | ⟨⟨hx, hy⟩, hxy⟩
  · rcases hyz with ⟨-, hz⟩ | ⟨⟨hnot, -⟩, -⟩
    · exact Or.inl ⟨hx, hz⟩
    · rw [hy] at hnot
      cases hnot
  · rcases hyz with ⟨hnot, -⟩ | ⟨⟨-, hz⟩, hyz⟩
    · rw [hy] at hnot
      cases hnot
    · refine Or.inr ⟨⟨hx, hz⟩, ?_⟩
      rcases hxy with rfl | ⟨hzero, hzero'⟩
      · exact hyz
      · rcases hyz with rfl | ⟨-, hzero''⟩
        · exact Or.inr ⟨hzero, hzero'⟩
        · exact Or.inr ⟨hzero, hzero''⟩

namespace Value

theorem sameEntries_iff {l r : List (Value × Value)} :
    sameEntries l r = true ↔ ∀ e ∈ l, ∃ f ∈ r, same e.1 f.1 = true ∧ same e.2 f.2 = true := by
  induction l with
  | nil => simp [sameEntries]
  | cons e l ih =>
    obtain ⟨key, value⟩ := e
    simp [sameEntries, ih, List.any_eq_true]

mutual

theorem same_trans : ∀ {a b c : Value}, same a b = true → same b c = true → same a c = true
  | .null, b, c, hab, hbc => by
    cases b with
    | null => exact hbc
    | _ => simp [same] at hab
  | .bool x, b, c, hab, hbc => by
    cases b with
    | bool y =>
      obtain rfl : x = y := by simpa [same] using hab
      exact hbc
    | _ => simp [same] at hab
  | .int x, b, c, hab, hbc => by
    cases b with
    | int y =>
      obtain rfl : x = y := by simpa [same] using hab
      exact hbc
    | _ => simp [same] at hab
  | .float x, b, c, hab, hbc => by
    cases b with
    | float y =>
      cases c with
      | float z =>
        rw [same] at hab hbc ⊢
        exact Binary64.same_trans hab hbc
      | _ => simp [same] at hbc
    | _ => simp [same] at hab
  | .string x, b, c, hab, hbc => by
    cases b with
    | string y =>
      obtain rfl : x = y := by simpa [same] using hab
      exact hbc
    | _ => simp [same] at hab
  | .sequence x, b, c, hab, hbc => by
    cases b with
    | sequence y =>
      cases c with
      | sequence z =>
        rw [same] at hab hbc ⊢
        exact sameItems_trans hab hbc
      | _ => simp [same] at hbc
    | _ => simp [same] at hab
  | .mapping x, b, c, hab, hbc => by
    cases b with
    | mapping y =>
      cases c with
      | mapping z =>
        simp only [same, Bool.and_eq_true, beq_iff_eq, sameEntries_iff] at hab hbc ⊢
        refine ⟨hab.1.trans hbc.1, fun e he ↦ ?_⟩
        obtain ⟨f, hf, hkey, hvalue⟩ := hab.2 e he
        obtain ⟨g, hg, hkey', hvalue'⟩ := hbc.2 f hf
        obtain ⟨hkeys, hvalues⟩ := same_trans_entries x e he
        exact ⟨g, hg, hkeys hkey hkey', hvalues hvalue hvalue'⟩
      | _ => simp [same] at hbc
    | _ => simp [same] at hab
  | .tagged s x, b, c, hab, hbc => by
    cases b with
    | tagged t y =>
      cases c with
      | tagged u z =>
        simp only [same, Bool.and_eq_true, beq_iff_eq] at hab hbc ⊢
        exact ⟨hab.1.trans hbc.1, same_trans hab.2 hbc.2⟩
      | _ => simp [same] at hbc
    | _ => simp [same] at hab

theorem sameItems_trans : ∀ {l m r : List Value}, sameItems l m = true → sameItems m r = true →
    sameItems l r = true
  | [], m, r, hlm, hmr => by
    cases m with
    | nil => exact hmr
    | cons item rest => simp [sameItems] at hlm
  | item :: rest, m, r, hlm, hmr => by
    cases m with
    | nil => simp [sameItems] at hlm
    | cons item' rest' =>
      cases r with
      | nil => simp [sameItems] at hmr
      | cons item'' rest'' =>
        simp only [sameItems, Bool.and_eq_true] at hlm hmr ⊢
        exact ⟨same_trans hlm.1 hmr.1, sameItems_trans hlm.2 hmr.2⟩

/-- Transitivity from the keys and values of a mapping on. -/
theorem same_trans_entries : ∀ entries : List (Value × Value), ∀ e ∈ entries,
    (∀ {v w : Value}, same e.1 v = true → same v w = true → same e.1 w = true) ∧
      ∀ {v w : Value}, same e.2 v = true → same v w = true → same e.2 w = true
  | [], _, h => absurd h List.not_mem_nil
  | (key, value) :: rest, e, h => by
    rcases List.mem_cons.1 h with rfl | h
    · exact ⟨same_trans, same_trans⟩
    · exact same_trans_entries rest e h

end

theorem isTransitive_same : IsTransitive Value.same := fun _ _ _ ↦ same_trans

end Value

/-! ### Entries of a kubeconfig -/

section Parts

variable {α : Type} {same : α → α → Bool}

theorem NameMap.sameEntries_trans (h : IsTransitive same) {l m r : List (String × α)}
    (hlm : NameMap.sameEntries same l m = true) (hmr : NameMap.sameEntries same m r = true) :
    NameMap.sameEntries same l r = true := by
  induction l generalizing m r with
  | nil =>
    cases m with
    | nil => exact hmr
    | cons e m => cases hlm
  | cons e l ih =>
    cases m with
    | nil => cases hlm
    | cons f m =>
      cases r with
      | nil => cases hmr
      | cons g r =>
        simp only [NameMap.sameEntries, Bool.and_eq_true, beq_iff_eq] at hlm hmr ⊢
        exact ⟨⟨hlm.1.1.trans hmr.1.1, h _ _ _ hlm.1.2 hmr.1.2⟩, ih hlm.2 hmr.2⟩

theorem sameOption_trans (h : IsTransitive same) {a b c : Option α}
    (hab : sameOption same a b = true) (hbc : sameOption same b c = true) :
    sameOption same a c = true := by
  cases a with
  | none =>
    cases b with
    | none => exact hbc
    | some b => cases hab
  | some a =>
    cases b with
    | none => cases hab
    | some b =>
      cases c with
      | none => cases hbc
      | some c => exact h a b c hab hbc

end Parts

theorem Extra.same_trans {a b c : Extra} (hab : a.same b = true) (hbc : b.same c = true) :
    a.same c = true :=
  NameMap.sameEntries_trans Value.isTransitive_same hab hbc

theorem Cluster.same_trans {a b c : Cluster} (hab : a.same b = true) (hbc : b.same c = true) :
    a.same c = true := by
  simp only [Cluster.same, Bool.and_eq_true, beq_iff_eq] at hab hbc ⊢
  obtain ⟨⟨⟨⟨⟨hserver, hdata⟩, hfile⟩, hskip⟩, hname⟩, hextra⟩ := hab
  rw [hserver, hdata, hfile, hskip, hname]
  exact ⟨hbc.1, Extra.same_trans hextra hbc.2⟩

theorem Plugin.isTransitive_same : IsTransitive Plugin.same := by
  intro a b c hab hbc
  simp only [Plugin.same, Bool.and_eq_true, beq_iff_eq] at hab hbc ⊢
  obtain ⟨⟨⟨⟨hversion, hcommand⟩, hargs⟩, henv⟩, hextra⟩ := hab
  rw [hversion, hcommand, hargs, henv]
  exact ⟨hbc.1, Extra.same_trans hextra hbc.2⟩

theorem User.isTransitive_same : IsTransitive User.same := by
  intro a b c hab hbc
  simp only [User.same, Bool.and_eq_true, beq_iff_eq] at hab hbc ⊢
  obtain ⟨⟨⟨⟨htoken, hplugin⟩, hcertificate⟩, hkey⟩, hextra⟩ := hab
  obtain ⟨⟨⟨⟨htoken', hplugin'⟩, hcertificate'⟩, hkey'⟩, hextra'⟩ := hbc
  exact ⟨⟨⟨⟨htoken.trans htoken', sameOption_trans Plugin.isTransitive_same hplugin hplugin'⟩,
    hcertificate.trans hcertificate'⟩, hkey.trans hkey'⟩, Extra.same_trans hextra hextra'⟩

theorem Context.same_trans {a b c : Context} (hab : a.same b = true) (hbc : b.same c = true) :
    a.same c = true := by
  simp only [Context.same, Bool.and_eq_true, beq_iff_eq] at hab hbc ⊢
  obtain ⟨⟨⟨⟨hcluster, huser⟩, hnamespace⟩, hextensions⟩, hextra⟩ := hab
  obtain ⟨⟨⟨⟨hcluster', huser'⟩, hnamespace'⟩, hextensions'⟩, hextra'⟩ := hbc
  exact ⟨⟨⟨⟨hcluster.trans hcluster', huser.trans huser'⟩, hnamespace.trans hnamespace'⟩,
    sameOption_trans Value.isTransitive_same hextensions hextensions'⟩,
    Extra.same_trans hextra hextra'⟩

namespace Switch

variable {a b c : Kubeconfig} {nameInA nameInB nameInC : String}

/-- Two contexts are the same target when both resolve, to what is the same. -/
theorem sameTarget_iff : sameTarget a nameInA b nameInB = true ↔
    ∃ x y, a.resolve nameInA = .ok x ∧ b.resolve nameInB = .ok y ∧
      ({ x.context with cluster := "", user := "" } : Context).same
        { y.context with cluster := "", user := "" } = true ∧
      x.cluster.same y.cluster = true ∧ sameOption User.same x.user y.user = true := by
  unfold sameTarget
  cases a.resolve nameInA with
  | error failure => simp
  | ok x =>
    cases b.resolve nameInB with
    | error failure => simp
    | ok y => simp [and_assoc]

theorem sameTarget_trans (hab : sameTarget a nameInA b nameInB = true)
    (hbc : sameTarget b nameInB c nameInC = true) : sameTarget a nameInA c nameInC = true := by
  obtain ⟨x, y, hx, hy, hbody, hcluster, huser⟩ := sameTarget_iff.1 hab
  obtain ⟨y', z, hy', hz, hbody', hcluster', huser'⟩ := sameTarget_iff.1 hbc
  obtain rfl : y = y' := Except.ok.inj (hy.symm.trans hy')
  exact sameTarget_iff.2 ⟨x, z, hx, hz, Context.same_trans hbody hbody',
    Cluster.same_trans hcluster hcluster', sameOption_trans User.isTransitive_same huser huser'⟩

end Switch

end Wayfinder
