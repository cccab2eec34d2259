import Wayfinder.Proofs.Addresses
import Wayfinder.Proofs.Encoding

/-!
Names as segments of a path. What a name is spelled with stays as it is in a path, and is read back
as the octets of the name (`Url.Percent.decode_segment`). Main statement: the segment of a name is
settled unless the name itself is a full stop or two, because those are kept and are steps
(`Url.isSettled_segment_iff`). A segment that is read back as full stops is spelled with them or
with their octets, and a percent sign in a name has octets of its own; so no other name becomes a
step.
-/

set_option autoImplicit false
set_option relaxedAutoImplicit false

namespace Wayfinder

namespace Url

/-! ### Names read back -/

namespace Percent

theorem digit?_digit : ∀ n < 16, Decimal.digit? 16 (digit n) = some n := by decide

theorem decode_octet (b : UInt8) (l : List Char) : decode (octet b ++ l) = b :: decode l := by
  have hb : b.toNat < 256 := b.toNat_lt_size
  have hhigh := digit?_digit (b.toNat / 16) (by omega)
  have hlow := digit?_digit (b.toNat % 16) (by omega)
  have hsum : 16 * (b.toNat / 16) + b.toNat % 16 = b.toNat := Nat.div_add_mod _ _
  have hoctet : octet b ++ l = '%' :: digit (b.toNat / 16) :: digit (b.toNat % 16) :: l := rfl
  rw [hoctet, decode]
  simp only [hhigh, hlow, hsum, Nat.toUInt8, UInt8.ofNat_toNat]

theorem decode_octets (bytes : List UInt8) (l : List Char) :
    decode (bytes.flatMap octet ++ l) = bytes ++ decode l := by
  induction bytes with
  | nil => rfl
  | cons b rest ih => rw [List.flatMap_cons, List.append_assoc, decode_octet, ih, List.cons_append]

theorem decode_cons {c : Char} (h : c ≠ '%') (l : List Char) :
    decode (c :: l) = String.utf8EncodeChar c ++ decode l := by
  rw [decode]
  rintro a b rest ⟨⟩
  exact absurd rfl h

/-- What is encoded is read back, if no percent sign is kept. -/
theorem decode_encode {keep : Char → Bool} (h : keep '%' = false) (l : List Char) :
    decode (encode keep l) = l.flatMap String.utf8EncodeChar := by
  induction l with
  | nil => rfl
  | cons c rest ih =>
    have hcons : encode keep (c :: rest) = encodeChar keep c ++ encode keep rest := rfl
    rw [hcons, encodeChar, List.flatMap_cons]
    split
    · next hkeep =>
      have hc : c ≠ '%' := by
        rintro rfl
        rw [h] at hkeep
        cases hkeep
      rw [List.singleton_append, decode_cons hc, ih]
    · rw [decode_octets, ih]

/-- A name is read back from its segment. -/
theorem decode_segment (name : String) :
    decode (segment name).toList = (Text.encode name).toList := by
  rw [segment, String.toList_ofList, decode_encode rfl, Text.toList_encode]

theorem segment_inj {name other : String} : segment name = segment other ↔ name = other := by
  refine ⟨fun h ↦ Text.encode_inj.1 ?_, fun h ↦ h ▸ rfl⟩
  rw [← decode_segment, ← decode_segment, h]

theorem keepsInPath_of_isUnreserved :
    ∀ n < 128, isUnreserved (Char.ofNat n) = true →
      keepsInPath (Char.ofNat n) = true ∧ Char.ofNat n ≠ '/' ∧ Char.ofNat n ≠ '\\' := by
  decide

theorem keepsInPath_digit :
    ∀ n < 16, keepsInPath (digit n) = true ∧ digit n ≠ '/' ∧ digit n ≠ '\\' := by
  decide

theorem toNat_lt_of_isUnreserved {c : Char} (h : isUnreserved c = true) : c.toNat < 128 := by
  have hcases : (decide (c.val ≥ 'A'.val ∧ c.val ≤ 'Z'.val) ||
      decide (c.val ≥ 'a'.val) && decide (c.val ≤ 'z'.val) ||
      decide (c.val ≥ '0'.val) && decide (c.val ≤ '9'.val) ||
      c == '-' || c == '_' || c == '.' || c == '~') = true := h
  simp only [Bool.or_eq_true, Bool.and_eq_true, decide_eq_true_eq, beq_iff_eq] at hcases
  rcases hcases with (((((⟨-, hle⟩ | ⟨-, hle⟩) | ⟨-, hle⟩) | rfl) | rfl) | rfl) | rfl
  · exact Nat.lt_of_le_of_lt (UInt32.le_iff_toNat_le.1 hle) (by decide)
  · exact Nat.lt_of_le_of_lt (UInt32.le_iff_toNat_le.1 hle) (by decide)
  · exact Nat.lt_of_le_of_lt (UInt32.le_iff_toNat_le.1 hle) (by decide)
  all_goals decide

/-- What a name is spelled with stays as it is in a path. -/
theorem isKept_segment (name : String) : IsKept (segment name) := by
  intro c hc
  rw [segment, String.toList_ofList] at hc
  obtain ⟨d, -, hd⟩ := List.mem_flatMap.1 hc
  rw [encodeChar] at hd
  split at hd
  · next hkeep =>
    obtain rfl := List.mem_singleton.1 hd
    have hkept := keepsInPath_of_isUnreserved c.toNat (toNat_lt_of_isUnreserved hkeep)
    rw [Char.ofNat_toNat] at hkept
    exact hkept hkeep
  · obtain ⟨b, -, hb⟩ := List.mem_flatMap.1 hd
    have hlt : b.toNat < 256 := b.toNat_lt_size
    rw [octet, List.mem_cons, List.mem_cons, List.mem_singleton] at hb
    rcases hb with rfl | rfl | rfl
    · decide
    · exact keepsInPath_digit _ (by omega)
    · exact keepsInPath_digit _ (by omega)

end Percent

/-! ### Steps -/

/-- Which characters of ASCII are taken for a small one can be looked up, and no other is. -/
theorem eq_of_toLower {c d other : Char} (hascii : ∀ n < 128, (Char.ofNat n).toLower = d →
    Char.ofNat n = d ∨ Char.ofNat n = other) (h : c.toLower = d) : c = d ∨ c = other := by
  rcases Nat.lt_or_ge c.toNat 128 with hlt | hge
  · have hc := hascii c.toNat hlt
    rw [Char.ofNat_toNat] at hc
    exact hc h
  · have hnot : ¬(c.val ≥ 'A'.val ∧ c.val ≤ 'Z'.val) := fun hupper ↦
      absurd (Nat.le_trans hge (UInt32.le_iff_toNat_le.1 hupper.2)) (by decide)
    have hsame : c.toLower = c := dif_neg hnot
    exact Or.inl (hsame.symm.trans h)

theorem eq_or_of_toLower_e {c : Char} (h : c.toLower = 'e') : c = 'e' ∨ c = 'E' :=
  eq_of_toLower (by decide) h

/-- What stands for staying is read as a full stop. -/
theorem decode_of_isStay {l : List Char} (h : isStay l = true) (r : List Char) :
    Percent.decode (l ++ r) = 0x2e :: Percent.decode r := by
  simp only [isStay, Bool.or_eq_true, beq_iff_eq] at h
  rcases h with hplain | hspelled
  · obtain ⟨c, rfl, hc⟩ := List.map_eq_singleton_iff.1 hplain
    obtain rfl : c = '.' := (or_self_iff).1 (eq_of_toLower (by decide) hc)
    rw [List.singleton_append, Percent.decode_cons (by decide)]
    rfl
  · obtain ⟨c, _, rfl, hc, hrest⟩ := List.map_eq_cons_iff.1 hspelled
    obtain ⟨d, _, rfl, hd, hlast⟩ := List.map_eq_cons_iff.1 hrest
    obtain ⟨e, rfl, he⟩ := List.map_eq_singleton_iff.1 hlast
    obtain rfl : c = '%' := (or_self_iff).1 (eq_of_toLower (by decide) hc)
    obtain rfl : d = '2' := (or_self_iff).1 (eq_of_toLower (by decide) hd)
    rcases eq_or_of_toLower_e he with rfl | rfl
    · rfl
    · rfl

/-- What stands for a step up is twice what stands for staying. -/
theorem exists_of_isStepUp {l : List Char} (h : isStepUp l = true) :
    ∃ first second, l = first ++ second ∧ isStay first = true ∧ isStay second = true := by
  have hsplit (plain spelled : List Char) (hmap : l.map Char.toLower = plain ++ spelled)
      (hplain : plain = ['.'] ∨ plain = ['%', '2', 'e'])
      (hspelled : spelled = ['.'] ∨ spelled = ['%', '2', 'e']) :
      ∃ first second, l = first ++ second ∧ isStay first = true ∧ isStay second = true := by
    obtain ⟨first, second, rfl, hfirst, hsecond⟩ := List.map_eq_append_iff.1 hmap
    refine ⟨first, second, rfl, ?_, ?_⟩
    · rw [isStay, hfirst, Bool.or_eq_true, beq_iff_eq, beq_iff_eq]
      exact hplain
    · rw [isStay, hsecond, Bool.or_eq_true, beq_iff_eq, beq_iff_eq]
      exact hspelled
  simp only [isStepUp, Bool.or_eq_true, beq_iff_eq] at h
  rcases h with ((hmap | hmap) | hmap) | hmap
  · exact hsplit ['.'] ['.'] hmap (Or.inl rfl) (Or.inl rfl)
  · exact hsplit ['%', '2', 'e'] ['.'] hmap (Or.inr rfl) (Or.inl rfl)
  · exact hsplit ['.'] ['%', '2', 'e'] hmap (Or.inl rfl) (Or.inr rfl)
  · exact hsplit ['%', '2', 'e'] ['%', '2', 'e'] hmap (Or.inr rfl) (Or.inr rfl)

theorem isStay_segment_iff {name : String} :
    isStay (Percent.segment name).toList = true ↔ name = "." := by
  constructor
  · intro h
    have hdecode := decode_of_isStay h []
    have hdot : (Text.encode ".").toList = 0x2e :: Percent.decode [] := by
      rw [Text.toList_encode]
      rfl
    rw [List.append_nil, Percent.decode_segment, ← hdot] at hdecode
    exact Text.encode_inj.1 hdecode
  · rintro rfl
    rfl

theorem isStepUp_segment_iff {name : String} :
    isStepUp (Percent.segment name).toList = true ↔ name = ".." := by
  constructor
  · intro h
    obtain ⟨first, second, hsplit, hfirst, hsecond⟩ := exists_of_isStepUp h
    have hdecode := decode_of_isStay hsecond []
    rw [List.append_nil] at hdecode
    have hname := Percent.decode_segment name
    have hdots : (Text.encode "..").toList = 0x2e :: 0x2e :: Percent.decode [] := by
      rw [Text.toList_encode]
      rfl
    rw [hsplit, decode_of_isStay hfirst, hdecode, ← hdots] at hname
    exact Text.encode_inj.1 hname.symm
  · rintro rfl
    rfl

/-- A name is a segment that stays where it is put, unless it is a step itself. -/
theorem isSettled_segment_iff {name : String} :
    IsSettled (Percent.segment name) ↔ name ≠ "." ∧ name ≠ ".." := by
  constructor
  · intro h
    refine ⟨fun hstay ↦ ?_, fun hup ↦ ?_⟩
    · exact Bool.false_ne_true (h.not_stay.symm.trans (isStay_segment_iff.2 hstay))
    · exact Bool.false_ne_true (h.not_up.symm.trans (isStepUp_segment_iff.2 hup))
  · rintro ⟨hstay, hup⟩
    exact ⟨Percent.isKept_segment name, Bool.eq_false_iff.2 (mt isStepUp_segment_iff.1 hup),
      Bool.eq_false_iff.2 (mt isStay_segment_iff.1 hstay)⟩

end Url

end Wayfinder
