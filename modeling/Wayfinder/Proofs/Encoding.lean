import Wayfinder.Text.Utf8

/-!
Texts and their octets. The octets of a text are those of its characters one after the other
(`Text.toList_encode`), and a character of ASCII is its own octet. Main statement: the order of
texts is the order of their octets (`Text.encode_le_of_not_lt`), because of two characters the lower
one is spelled by lower octets, whatever follows (`Text.utf8EncodeChar_append_lt`).
-/

set_option autoImplicit false
set_option relaxedAutoImplicit false

namespace Wayfinder.Text

/-! ### Octets one by one -/

theorem loop_eq (bytes : ByteArray) (i : Nat) (done : List UInt8) :
    ByteArray.toList.loop bytes i done = done.reverse ++ bytes.data.toList.drop i := by
  fun_induction ByteArray.toList.loop bytes i done with
  | case1 i done hlt ih =>
    have hlength : i < bytes.data.toList.length := by
      rw [Array.length_toList]
      exact hlt
    have hget : bytes.get! i = bytes.data.toList[i] := by
      rw [Array.getElem_toList]
      exact getElem!_pos bytes.data i hlt
    rw [ih, List.drop_eq_getElem_cons hlength, List.reverse_cons, List.append_assoc, hget]
    rfl
  | case2 i done hle =>
    have hlength : bytes.data.toList.length ≤ i := by
      rw [Array.length_toList]
      exact Nat.le_of_not_lt hle
    rw [List.drop_eq_nil_of_le hlength, List.append_nil]

theorem toList_eq (bytes : ByteArray) : bytes.toList = bytes.data.toList := by
  rw [ByteArray.toList, loop_eq]
  rfl

/-- The octets of a text are those of its characters. -/
theorem toList_encode (s : String) :
    (encode s).toList = s.toList.flatMap String.utf8EncodeChar := by
  have hbytes : encode s = s.toList.utf8Encode := String.utf8Encode_toList.symm
  rw [toList_eq, hbytes, List.utf8Encode, List.toList_data_toByteArray]

theorem encode_inj {s t : String} : (encode s).toList = (encode t).toList ↔ s = t := by
  refine ⟨fun h ↦ ?_, fun h ↦ h ▸ rfl⟩
  have hs : some s = some t := by
    rw [← decode_encode s, ← decode_encode t]
    refine congrArg decode (ByteArray.ext (Array.toList_inj.1 ?_))
    rw [← toList_eq, ← toList_eq, h]
  exact Option.some.inj hs

/-- A character of ASCII is its own octet. -/
theorem utf8EncodeChar_of_lt {c : Char} (h : c.toNat < 128) :
    String.utf8EncodeChar c = [c.toNat.toUInt8] := by
  have hle : c.val.toNat ≤ 0x7f := Nat.le_of_lt_succ h
  simp only [String.utf8EncodeChar, hle, if_true]
  rfl

/-! ### The order of texts -/

theorem ofNat_cons_lt {m n : Nat} {l r : List UInt8} (hn : n < 256)
    (h : m < n ∨ m = n ∧ l < r) : UInt8.ofNat m :: l < UInt8.ofNat n :: r := by
  rw [List.cons_lt_cons_iff, UInt8.lt_iff_toNat_lt]
  rcases h with hlt | ⟨rfl, hlt⟩
  · refine Or.inl ?_
    rw [UInt8.toNat_ofNat_of_lt' (Nat.lt_trans hlt hn), UInt8.toNat_ofNat_of_lt' hn]
    exact hlt
  · exact Or.inr ⟨rfl, hlt⟩

/-- Of two characters the lower one is spelled by lower octets, whatever follows. One that takes
fewer octets has a lower first octet; of two that take as many, the first difference decides. -/
theorem utf8EncodeChar_append_lt {c d : Char} (h : c < d) (l r : List UInt8) :
    String.utf8EncodeChar c ++ l < String.utf8EncodeChar d ++ r := by
  have hlt : c.val.toNat < d.val.toNat := h
  have hmax : d.val.toNat < 0x110000 := by
    rcases d.valid with hlow | ⟨-, hhigh⟩
    · exact Nat.lt_trans hlow (by decide)
    · exact hhigh
  fun_cases String.utf8EncodeChar c with
  | case1 v hv =>
    fun_cases String.utf8EncodeChar d with
    | case1 w hw => exact ofNat_cons_lt (by omega) (Or.inl hlt)
    | case2 w hw hw' => exact ofNat_cons_lt (by omega) (Or.inl (by omega))
    | case3 w hw hw' hw'' => exact ofNat_cons_lt (by omega) (Or.inl (by omega))
    | case4 w hw hw' hw'' => exact ofNat_cons_lt (by omega) (Or.inl (by omega))
  | case2 v hv hv' =>
    fun_cases String.utf8EncodeChar d with
    | case1 w hw => omega
    | case2 w hw hw' =>
      rcases Nat.lt_or_ge (v / 64) (w / 64) with hfirst | hfirst
      · exact ofNat_cons_lt (by omega) (Or.inl (by omega))
      · exact ofNat_cons_lt (by omega)
          (Or.inr ⟨by omega, ofNat_cons_lt (by omega) (Or.inl (by omega))⟩)
    | case3 w hw hw' hw'' => exact ofNat_cons_lt (by omega) (Or.inl (by omega))
    | case4 w hw hw' hw'' => exact ofNat_cons_lt (by omega) (Or.inl (by omega))
  | case3 v hv hv' hv'' =>
    fun_cases String.utf8EncodeChar d with
    | case1 w hw => omega
    | case2 w hw hw' => omega
    | case3 w hw hw' hw'' =>
      rcases Nat.lt_or_ge (v / 4096) (w / 4096) with hfirst | hfirst
      · exact ofNat_cons_lt (by omega) (Or.inl (by omega))
      · refine ofNat_cons_lt (by omega) (Or.inr ⟨by omega, ?_⟩)
        rcases Nat.lt_or_ge (v / 64) (w / 64) with hsecond | hsecond
        · exact ofNat_cons_lt (by omega) (Or.inl (by omega))
        · exact ofNat_cons_lt (by omega)
            (Or.inr ⟨by omega, ofNat_cons_lt (by omega) (Or.inl (by omega))⟩)
    | case4 w hw hw' hw'' => exact ofNat_cons_lt (by omega) (Or.inl (by omega))
  | case4 v hv hv' hv'' =>
    fun_cases String.utf8EncodeChar d with
    | case1 w hw => omega
    | case2 w hw hw' => omega
    | case3 w hw hw' hw'' => omega
    | case4 w hw hw' hw'' =>
      rcases Nat.lt_or_ge (v / 262144) (w / 262144) with hfirst | hfirst
      · exact ofNat_cons_lt (by omega) (Or.inl (by omega))
      · refine ofNat_cons_lt (by omega) (Or.inr ⟨by omega, ?_⟩)
        rcases Nat.lt_or_ge (v / 4096) (w / 4096) with hsecond | hsecond
        · exact ofNat_cons_lt (by omega) (Or.inl (by omega))
        · refine ofNat_cons_lt (by omega) (Or.inr ⟨by omega, ?_⟩)
          rcases Nat.lt_or_ge (v / 64) (w / 64) with hthird | hthird
          · exact ofNat_cons_lt (by omega) (Or.inl (by omega))
          · exact ofNat_cons_lt (by omega)
              (Or.inr ⟨by omega, ofNat_cons_lt (by omega) (Or.inl (by omega))⟩)

theorem flatMap_utf8EncodeChar_lt {l r : List Char} (h : l < r) :
    l.flatMap String.utf8EncodeChar < r.flatMap String.utf8EncodeChar := by
  induction l generalizing r with
  | nil =>
    cases r with
    | nil => exact absurd h (List.not_lt_nil [])
    | cons d r =>
      rw [List.flatMap_nil, List.flatMap_cons]
      cases hd : String.utf8EncodeChar d with
      | nil => exact absurd hd String.utf8EncodeChar_ne_nil
      | cons b rest => exact List.nil_lt_cons b _
  | cons c l ih =>
    cases r with
    | nil => exact absurd h (List.not_lt_nil _)
    | cons d r =>
      rw [List.flatMap_cons, List.flatMap_cons]
      rcases List.cons_lt_cons_iff.1 h with hlt | ⟨rfl, hlt⟩
      · exact utf8EncodeChar_append_lt hlt _ _
      · exact List.append_left_lt (ih hlt)

theorem encode_lt {s t : String} (h : s < t) : (encode s).toList < (encode t).toList := by
  rw [toList_encode, toList_encode]
  exact flatMap_utf8EncodeChar_lt h

/-- The order of texts is the order of their octets. -/
theorem encode_le_of_not_lt {s t : String} (h : ¬t < s) :
    (encode s).toList ≤ (encode t).toList := by
  rcases Std.lt_trichotomy s t with hlt | rfl | hgt
  · exact List.le_of_lt (encode_lt hlt)
  · exact List.le_refl _
  · exact absurd hgt h

end Wayfinder.Text
