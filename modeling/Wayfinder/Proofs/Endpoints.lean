import Wayfinder.Place.Node
import Wayfinder.Proofs.Activation
import Wayfinder.Proofs.Addresses
import Wayfinder.Proofs.Laying

/-!
Endpoints in normal form. However an address is spelled, its host with the port is made of the
characters of hosts (`Url.isHostText_of_readAuthority`), and neither that nor a segment of the path
has a slash in it (`Url.parse_regular`). Main statement: behind its scheme an endpoint of the web
names no second scheme, and it does not end in a slash (`ServerPath.ingress_of_parse`); so a space
that is known by an endpoint has the address of that endpoint, but with `https` for its scheme
(`Space.serverUrl_of_parse`).
-/

set_option autoImplicit false
set_option relaxedAutoImplicit false

namespace Wayfinder

/-! ### Characters of joined texts and of digits -/

namespace Text

variable {sep c : Char} {l piece : List Char}

theorem not_mem_of_mem_pieces (h : piece ∈ pieces sep l) : sep ∉ piece := by
  induction l generalizing piece with
  | nil =>
    obtain rfl := List.mem_singleton.1 h
    exact List.not_mem_nil
  | cons c rest ih =>
    rw [pieces] at h
    split at h
    · rcases List.mem_cons.1 h with rfl | hrest
      · exact List.not_mem_nil
      · exact ih hrest
    · next hne =>
      cases hpieces : pieces sep rest with
      | nil => exact absurd hpieces (pieces_ne_nil sep rest)
      | cons first more =>
        rw [hpieces] at h ih
        rcases List.mem_cons.1 h with rfl | hmore
        · rw [List.mem_cons, not_or]
          exact ⟨Ne.symm hne, ih List.mem_cons_self⟩
        · exact ih (List.mem_cons_of_mem _ hmore)

theorem mem_of_mem_join {l : List (List Char)} (h : c ∈ join sep l) :
    c = sep ∨ ∃ piece ∈ l, c ∈ piece := by
  induction l with
  | nil => cases h
  | cons piece more ih =>
    cases more with
    | nil => exact Or.inr ⟨piece, List.mem_cons_self, h⟩
    | cons next rest =>
      rw [join, List.mem_append, List.mem_cons] at h
      · rcases h with hpiece | rfl | hrest
        · exact Or.inr ⟨piece, List.mem_cons_self, hpiece⟩
        · exact Or.inl rfl
        · refine (ih hrest).imp_right ?_
          rintro ⟨other, hother, hc⟩
          exact ⟨other, List.mem_cons_of_mem _ hother, hc⟩
      · exact List.cons_ne_nil _ _

theorem join_eq_intercalate (sep : Char) (l : List (List Char)) :
    join sep l = [sep].intercalate l := by
  induction l with
  | nil => rfl
  | cons piece more ih =>
    cases more with
    | nil => simp [join, List.intercalate]
    | cons next rest =>
      rw [join, ih]
      · simp [List.intercalate]
      · exact List.cons_ne_nil _ _

theorem forall_mem_intercalate {p : Char → Prop} {sep : Char} (hsep : p sep) {l : List String}
    (h : ∀ s ∈ l, ∀ c ∈ s.toList, p c) :
    ∀ c ∈ ((String.singleton sep).intercalate l).toList, p c := by
  intro c hc
  rw [String.toList_intercalate, String.toList_singleton, ← join_eq_intercalate] at hc
  rcases mem_of_mem_join hc with rfl | ⟨piece, hpiece, hin⟩
  · exact hsep
  · obtain ⟨s, hs, rfl⟩ := List.mem_map.1 hpiece
    exact h s hs c hin

/-- What holds of the digits of a base holds of all characters of a number. -/
theorem forall_mem_toDigits {p : Char → Prop} {base : ℕ} (hbase : 1 < base)
    (h : ∀ k < base, p k.digitChar) (n : ℕ) : ∀ c ∈ Nat.toDigits base n, p c := by
  induction n using Nat.strongRecOn with
  | ind n ih =>
    rw [Nat.toDigits_eq_if hbase]
    split
    · next hlt => exact List.forall_mem_singleton.2 (h n hlt)
    · next hle =>
      rw [List.forall_mem_append, List.forall_mem_singleton]
      exact ⟨ih _ (Nat.div_lt_self (by omega) hbase), h _ (Nat.mod_lt _ (by omega))⟩

end Text

namespace Url

/-! ### Characters of hosts -/

/-- Whether a character stands in hosts and in what comes before their ports. -/
def isHostChar (c : Char) : Bool := !Domain.isForbidden c || c == ':' || c == '[' || c == ']'

/-- A text that is made of such characters. -/
def IsHostLike (l : List Char) : Prop := ∀ c ∈ l, isHostChar c = true

instance (l : List Char) : Decidable (IsHostLike l) :=
  decidable_of_iff (l.all isHostChar = true) List.all_eq_true

/-- A character of a host is none that is taken off an address, or that ends its host. -/
theorem isHostChar_spec {c : Char} (h : isHostChar c = true) :
    isEdge c = false ∧ c ≠ '/' ∧ c ≠ '\\' ∧ c ≠ '?' ∧ c ≠ '#' := by
  have hmark : ∀ mark ∈ ['/', '\\', '?', '#'], c ≠ mark := by
    rintro mark hmark rfl
    have hno : ['/', '\\', '?', '#'].all (!isHostChar ·) = true := rfl
    simpa [h] using List.all_eq_true.1 hno c hmark
  refine ⟨?_, hmark _ (by decide), hmark _ (by decide), hmark _ (by decide), hmark _ (by decide)⟩
  by_contra hedge
  rw [Bool.not_eq_false] at hedge
  have hforbidden : Domain.isForbidden c = true := by
    rw [Domain.isForbidden, Bool.or_eq_true, Bool.or_eq_true]
    exact Or.inl (Or.inl hedge)
  rw [isHostChar, hforbidden] at h
  simp only [Bool.not_true, Bool.false_or, Bool.or_eq_true, beq_iff_eq] at h
  rcases h with (rfl | rfl) | rfl
  · cases hedge
  · cases hedge
  · cases hedge

namespace IsHostLike

variable {l r : List Char}

theorem append (hl : IsHostLike l) (hr : IsHostLike r) : IsHostLike (l ++ r) :=
  List.forall_mem_append.2 ⟨hl, hr⟩

theorem slash_not_mem (h : IsHostLike l) : '/' ∉ l := fun hmem ↦
  (isHostChar_spec (h '/' hmem)).2.1 rfl

end IsHostLike

theorem isHostLike_toDigits {base : ℕ} (hbase : 1 < base ∧ base ≤ 16) (n : ℕ) :
    IsHostLike (Nat.toDigits base n) := by
  have hdigit : ∀ k < 16, isHostChar k.digitChar = true := by decide
  exact Text.forall_mem_toDigits hbase.1 (fun k hk ↦ hdigit k (hk.trans_le hbase.2)) n

theorem isHostLike_toString (n : ℕ) : IsHostLike (toString n).toList := by
  rw [Nat.toString_eq_repr, Nat.toList_repr]
  exact isHostLike_toDigits (by decide) n

/-! ### Names of hosts -/

namespace Punycode

variable {c : Char} {bias n basic : ℕ} {letters : List ℕ} {l : List Char}

theorem isHostChar_digit : ∀ i < 36, isHostChar (digit i) = true := by decide

theorem threshold_le (k bias : ℕ) : threshold k bias ≤ 26 := by
  rw [threshold]
  split
  · omega
  · split
    · omega
    · omega

theorem isHostLike_stepDigits (bias fuel k q : ℕ) : IsHostLike (stepDigits bias fuel k q) := by
  induction fuel generalizing k q with
  | zero => exact List.forall_mem_nil _
  | succ fuel ih =>
    have hle := threshold_le k bias
    simp only [stepDigits]
    split
    · next hlt => exact List.forall_mem_singleton.2 (isHostChar_digit q (by omega))
    · have hlt := Nat.mod_lt (q - threshold k bias) (y := 36 - threshold k bias) (by omega)
      exact List.forall_mem_cons.2 ⟨isHostChar_digit _ (by omega), ih _ _⟩

/-- A pass over the letters puts out digits. -/
theorem isHostLike_encodePass {p : Progress} (h : IsHostLike p.output) :
    IsHostLike (encodePass n basic letters p).output := by
  rw [encodePass]
  induction letters generalizing p with
  | nil => exact h
  | cons letter rest ih =>
    rw [List.foldl_cons]
    refine ih ?_
    split
    · exact h
    · split
      · exact h.append (isHostLike_stepDigits _ _ _ _)
      · exact h

theorem isHostLike_encodeFrom {fuel : ℕ} {p : Progress} (h : IsHostLike p.output) :
    IsHostLike (encodeFrom basic letters fuel n p) := by
  induction fuel generalizing n p with
  | zero => exact h
  | succ fuel ih =>
    rw [encodeFrom]
    split
    · exact h
    · refine ih ?_
      exact isHostLike_encodePass (p := { p with delta := _ }) h

/-- The spelling of a label in ASCII has its letters, hyphens and digits. -/
theorem isHostLike_encode (h : ∀ c ∈ l, c.toNat < 128 → isHostChar c = true) :
    IsHostLike (encode l) := by
  refine isHostLike_encodeFrom ?_
  dsimp only
  split
  · exact List.forall_mem_nil _
  · refine IsHostLike.append (fun c hc ↦ ?_) (List.forall_mem_singleton.2 rfl)
    obtain ⟨hmem, hascii⟩ := List.mem_filter.1 hc
    exact h c hmem (of_decide_eq_true hascii)

end Punycode

namespace Domain

variable {l name : List Char}

theorem isHostChar_of_isLetter {c : Char} (h : isLetter c = true) (hascii : c.toNat < 128) :
    isHostChar c = true := by
  rw [isLetter, if_pos hascii] at h
  rw [isHostChar, h]
  rfl

theorem isHostLike_spelled (h : l.all isLetter = true) :
    IsHostLike (['x', 'n', '-', '-'] ++ Punycode.encode l) := by
  have hmark : IsHostLike ['x', 'n', '-', '-'] := by decide
  exact hmark.append (Punycode.isHostLike_encode fun c hc ↦
    isHostChar_of_isLetter (List.all_eq_true.1 h c hc))

theorem isHostLike_label (h : label? l = some name) : IsHostLike name := by
  simp only [label?] at h
  split at h
  · split at h
    · cases h
    · split at h
      · cases h
      · next hspelled =>
        simp only [Bool.or_eq_true, not_or, Bool.not_eq_true', bne_iff_ne, ne_eq,
          Bool.not_eq_true, Bool.not_eq_false, not_not] at hspelled
        obtain ⟨⟨⟨⟨-, hletters⟩, -⟩, -⟩, hencode⟩ := hspelled
        obtain rfl := Option.some.inj h
        rw [← hencode]
        exact isHostLike_spelled hletters
  · split at h
    · cases h
    · next hletters =>
      simp only [Bool.or_eq_true, not_or, Bool.not_eq_true', Bool.not_eq_false] at hletters
      obtain ⟨hletters, -⟩ := hletters
      split at h
      · next hascii =>
        obtain rfl := Option.some.inj h
        intro c hc
        exact isHostChar_of_isLetter (List.all_eq_true.1 hletters c hc)
          (of_decide_eq_true (List.all_eq_true.1 hascii c hc))
      · obtain rfl := Option.some.inj h
        exact isHostLike_spelled hletters

theorem isHostLike_lookedUp (h : lookedUp? l = some name) : IsHostLike name := by
  obtain ⟨labels, hlabels, rfl⟩ := Option.map_eq_some_iff.1 h
  intro c hc
  rcases Text.mem_of_mem_join hc with rfl | ⟨label, hlabel, hin⟩
  · rfl
  · obtain ⟨spelled, -, hspelled⟩ := exists_mem_of_forall₂ (forall₂_of_mapM hlabels) hlabel
    exact isHostLike_label hspelled c hin

end Domain

/-! ### Hosts with their ports -/

/-- The text of a host with its port: there is one, and all its characters are those of hosts. -/
def IsHostText (s : String) : Prop := s ≠ "" ∧ IsHostLike s.toList

theorem IsHostText.append {s more : String} (h : IsHostText s) (hmore : IsHostLike more.toList) :
    IsHostText (s ++ more) := by
  refine ⟨fun hempty ↦ h.1 (String.append_eq_empty_iff.1 hempty).1, ?_⟩
  rw [String.toList_append]
  exact h.2.append hmore

theorem Octets.isHostLike_text (n : ℕ) : IsHostLike (Octets.text n).toList := by
  have hpoint : isHostChar '.' = true := rfl
  refine Text.forall_mem_intercalate (p := (isHostChar · = true)) hpoint fun s hs ↦ ?_
  obtain ⟨i, -, rfl⟩ := List.mem_map.1 hs
  exact isHostLike_toString _

theorem Pieces.isHostLike_joined (l : List ℕ) : IsHostLike (Pieces.joined l).toList := by
  have hcolon : isHostChar ':' = true := rfl
  refine Text.forall_mem_intercalate (p := (isHostChar · = true)) hcolon fun s hs ↦ ?_
  obtain ⟨n, -, rfl⟩ := List.mem_map.1 hs
  rw [String.toList_ofList]
  exact isHostLike_toDigits (by decide) n

theorem Pieces.isHostLike_text (l : List ℕ) : IsHostLike (Pieces.text l).toList := by
  have hgap : IsHostLike "::".toList := by decide
  simp only [Pieces.text]
  split
  · exact isHostLike_joined l
  · rw [String.toList_append, String.toList_append]
    exact ((isHostLike_joined _).append hgap).append (isHostLike_joined _)

theorem isHostText_brackets (l : List ℕ) : IsHostText (Host.pieces l).text := by
  have hleft : IsHostText "[" := ⟨by decide, by decide⟩
  have hright : IsHostLike "]".toList := by decide
  exact (hleft.append (Pieces.isHostLike_text l)).append hright

theorem isHostText_octets (n : ℕ) : IsHostText (Host.octets n).text := by
  refine ⟨?_, Octets.isHostLike_text n⟩
  intro hempty
  have hlists := congrArg String.toList hempty
  rw [Host.text, Octets.text, String.toList_intercalate] at hlists
  simp at hlists

theorem isHostText_of_commonHost {l : List Char} {host : Host} (h : commonHost l = .ok host) :
    IsHostText host.text := by
  unfold commonHost at h
  split at h
  · split at h
    · split at h
      · cases h
      · obtain rfl := Except.ok.inj h
        exact isHostText_brackets _
    · cases h
  · split at h
    · cases h
    · next name hname =>
      split at h
      · cases h
      · next hnonempty =>
        split at h
        · split at h
          · cases h
          · obtain rfl := Except.ok.inj h
            exact isHostText_octets _
        · obtain rfl := Except.ok.inj h
          obtain ⟨decoded, -, hlookedUp⟩ := Option.bind_eq_some_iff.1 hname
          refine ⟨?_, ?_⟩
          · rwa [Host.text, Ne, String.ofList_eq_empty_iff, ← List.isEmpty_iff]
          · rw [Host.text, String.toList_ofList]
            exact Domain.isHostLike_lookedUp hlookedUp

theorem isHostText_of_readAuthority {scheme : String} {l : List Char} {authority : Authority}
    (hscheme : isCommon scheme = true) (h : readAuthority scheme l = .ok authority) :
    IsHostText authority.text := by
  simp only [readAuthority, hscheme, Bool.true_or, Bool.and_true, if_true] at h
  split at h
  · cases h
  · obtain ⟨host, hhost, hport⟩ := Switch.bind_eq_ok h
    have htext := isHostText_of_commonHost hhost
    have hdomain : host ≠ .domain "" := by
      rintro rfl
      exact htext.1 rfl
    have hauthority : ∃ port, authority = { host := some host, port } := by
      split at hport
      · obtain ⟨port, -, hok⟩ := Switch.bind_eq_ok hport
        exact ⟨port, by rw [← Except.ok.inj hok, if_neg hdomain]⟩
      · obtain ⟨port, -, hok⟩ := Switch.bind_eq_ok hport
        exact ⟨port, by rw [← Except.ok.inj hok, if_neg hdomain]⟩
    obtain ⟨port, rfl⟩ := hauthority
    refine htext.append ?_
    cases port with
    | none => exact List.forall_mem_nil _
    | some n =>
      have hcolon : IsHostLike ":".toList := by decide
      rw [String.toList_append]
      exact hcolon.append (isHostLike_toString n)

/-! ### Segments of paths -/

theorem ofNat_ne {n : ℕ} {c : Char} (hc : c ≠ '\x00') (h : n ≠ c.toNat) : Char.ofNat n ≠ c := by
  by_cases hvalid : n.isValidChar
  · have hchar : Char.ofNat n = Char.ofNatAux n hvalid := dif_pos hvalid
    intro heq
    exact h (congrArg Char.toNat (hchar.symm.trans heq))
  · have hchar : Char.ofNat n = '\x00' := dif_neg hvalid
    rw [hchar]
    exact hc.symm

theorem Percent.digit_ne_slash (n : ℕ) : Percent.digit n ≠ '/' := by
  have hslash : '/'.toNat = 47 := rfl
  rw [Percent.digit]
  split
  · exact ofNat_ne (by decide) (by omega)
  · exact ofNat_ne (by decide) (by omega)

theorem Percent.slash_not_mem_encode {keep : Char → Bool} {l : List Char} (h : '/' ∉ l) :
    '/' ∉ Percent.encode keep l := by
  intro hmem
  obtain ⟨c, hc, hin⟩ := List.mem_flatMap.1 hmem
  rw [Percent.encodeChar] at hin
  split at hin
  · exact h (List.mem_singleton.1 hin ▸ hc)
  · obtain ⟨b, -, hb⟩ := List.mem_flatMap.1 hin
    rw [Percent.octet, List.mem_cons, List.mem_cons, List.mem_singleton] at hb
    rcases hb with hpercent | hhigh | hlow
    · cases hpercent
    · exact Percent.digit_ne_slash _ hhigh.symm
    · exact Percent.digit_ne_slash _ hlow.symm

/-- Steps take segments away; they leave at most an empty one. -/
theorem mem_takeSteps {l done : List (List Char)} {s : List Char} (h : s ∈ takeSteps done l) :
    s ∈ done ∨ s ∈ l ∨ s = [] := by
  induction l generalizing done with
  | nil => exact Or.inl h
  | cons first rest ih =>
    have hlast : ∀ before : List (List Char),
        s ∈ (if rest.isEmpty then before ++ [[]] else before) → s ∈ before ∨ s = [] := by
      intro before hbefore
      split at hbefore
      · exact (List.mem_append.1 hbefore).imp_right List.mem_singleton.1
      · exact Or.inl hbefore
    have hrest : s ∈ rest ∨ s = [] → s ∈ first :: rest ∨ s = [] :=
      Or.imp_left (List.mem_cons_of_mem _)
    rw [takeSteps] at h
    split at h
    · rcases ih h with hdone | hmore
      · rcases hlast _ hdone with hdone | hempty
        · exact Or.inl (List.dropLast_subset _ hdone)
        · exact Or.inr (Or.inr hempty)
      · exact Or.inr (hrest hmore)
    · split at h
      · rcases ih h with hdone | hmore
        · exact (hlast _ hdone).imp_right Or.inr
        · exact Or.inr (hrest hmore)
      · rcases ih h with hdone | hmore
        · refine (List.mem_append.1 hdone).imp_right fun hfirst ↦ Or.inl ?_
          exact List.mem_singleton.1 hfirst ▸ List.mem_cons_self
        · exact Or.inr (hrest hmore)

theorem slash_not_mem_segments {common : Bool} {l : List Char} {s : String}
    (h : s ∈ segments common l) : '/' ∉ s.toList := by
  obtain ⟨step, hstep, rfl⟩ := List.mem_map.1 h
  rw [String.toList_ofList]
  rcases mem_takeSteps hstep with hdone | hpiece | rfl
  · cases hdone
  · obtain ⟨piece, hin, rfl⟩ := List.mem_map.1 hpiece
    exact Percent.slash_not_mem_encode (Text.not_mem_of_mem_pieces hin)
  · exact List.not_mem_nil

/-- The segments of a path, if it has parts. -/
def Path.parts : Path → List String
  | .segments l => l
  | .plain _ => []

theorem slash_not_mem_commonPath {l : List Char} {s : String} (h : s ∈ (commonPath l).parts) :
    '/' ∉ s.toList := by
  unfold commonPath at h
  split at h
  · exact slash_not_mem_segments h
  · exact slash_not_mem_segments h
  · exact slash_not_mem_segments h

theorem slash_not_mem_ownPath {l : List Char} {s : String} (h : s ∈ (ownPath l).parts) :
    '/' ∉ s.toList := by
  unfold ownPath at h
  split at h
  · exact slash_not_mem_segments h
  · cases h

theorem slash_not_mem_ownPathAfterHost {l : List Char} {s : String}
    (h : s ∈ (ownPathAfterHost l).parts) : '/' ∉ s.toList := by
  unfold ownPathAfterHost at h
  split at h
  · cases h
  · exact slash_not_mem_segments h
  · exact slash_not_mem_segments h

/-! ### Whole addresses -/

/-- An address without slashes but between its parts. -/
structure IsRegular (url : Url) : Prop where
  host : ∀ authority, url.authority = some authority → isCommon url.scheme = true →
    IsHostText authority.text
  segments : ∀ segment ∈ url.pathSegments, '/' ∉ segment.toList

theorem isRegular_withAuthority {scheme : String} {path : List Char → Path} {l : List Char}
    {url : Url} (hpath : ∀ l, ∀ s ∈ (path l).parts, '/' ∉ s.toList)
    (h : withAuthority scheme path l = .ok url) : url.IsRegular := by
  obtain ⟨authority, hauthority, hok⟩ := Switch.bind_eq_ok h
  obtain rfl := Except.ok.inj hok
  refine ⟨fun other hother hscheme ↦ ?_, hpath _⟩
  obtain rfl := Option.some.inj hother
  exact isHostText_of_readAuthority hscheme hauthority

theorem exists_ending_of_fileUrl {l : List Char} {url : Url} (h : fileUrl l = .ok url) :
    ∃ authority rest, url = ending "file" (some authority) commonPath rest := by
  simp only [fileUrl] at h
  split at h
  · split at h
    · split at h
      · obtain ⟨host, -, hok⟩ := Switch.bind_eq_ok h
        exact ⟨_, _, (Except.ok.inj hok).symm⟩
      · obtain ⟨host, -, hok⟩ := Switch.bind_eq_ok h
        exact ⟨_, _, (Except.ok.inj hok).symm⟩
    · exact ⟨_, _, (Except.ok.inj h).symm⟩
  · exact ⟨_, _, (Except.ok.inj h).symm⟩

theorem isRegular_fileUrl {l : List Char} {url : Url} (h : fileUrl l = .ok url) :
    url.IsRegular := by
  obtain ⟨authority, rest, rfl⟩ := exists_ending_of_fileUrl h
  exact ⟨fun _ _ hscheme ↦ (by cases hscheme), fun _ ↦ slash_not_mem_commonPath⟩

/-- However an address is spelled, what is read has no slashes but between its parts. -/
theorem parse_regular {s : String} {url : Url} (h : parse s = .ok url) : url.IsRegular := by
  unfold parse at h
  split at h
  · cases h
  · split at h
    · exact isRegular_fileUrl h
    · split at h
      · exact isRegular_withAuthority (fun _ _ ↦ slash_not_mem_commonPath) h
      · split at h
        · exact isRegular_withAuthority (fun _ _ ↦ slash_not_mem_ownPathAfterHost) h
        · obtain rfl := Except.ok.inj h
          exact ⟨fun _ hauthority ↦ (by cases hauthority), fun _ ↦ slash_not_mem_ownPath⟩

end Url

/-! ### Ends and schemes of texts -/

/-- A text that does not end in a slash. -/
def NoSlashAtEnd (s : String) : Prop := ∀ c, s.toList.getLast? = some c → c ≠ '/'

theorem noSlashAtEnd_dropSlashes (s : String) : NoSlashAtEnd (dropSlashes s) := by
  intro c hc
  rw [dropSlashes, String.toList_ofList, List.getLast?_reverse] at hc
  have hhead := List.head?_dropWhile_not (· == '/') s.toList.reverse
  rw [hc] at hhead
  simpa using hhead

theorem dropSlashes_eq_self {s : String} (h : NoSlashAtEnd s) : dropSlashes s = s := by
  have hdrop : Text.dropEndWhile (· == '/') s.toList = s.toList :=
    Text.dropEndWhile_eq_self_iff.2 fun c hc ↦ beq_eq_false_iff_ne.2 (h c hc)
  rw [dropSlashes, ← Text.dropEndWhile, hdrop, String.ofList_toList]

theorem NoSlashAtEnd.of_append {start rest : String} (h : NoSlashAtEnd (start ++ rest)) :
    NoSlashAtEnd rest := by
  intro c hc
  refine h c ?_
  rw [String.toList_append, List.getLast?_append, hc, Option.some_or]

theorem NoSlashAtEnd.append {s more : String} (h : NoSlashAtEnd s) (hmore : NoSlashAtEnd more) :
    NoSlashAtEnd (s ++ more) := by
  intro c hc
  rw [String.toList_append, List.getLast?_append] at hc
  cases hlast : more.toList.getLast? with
  | none =>
    rw [hlast, Option.none_or] at hc
    exact h c hc
  | some last =>
    rw [hlast, Option.some_or] at hc
    exact hmore c (hc ▸ hlast)

theorem noSlashAtEnd_of_not_mem {s : String} (h : '/' ∉ s.toList) : NoSlashAtEnd s :=
  fun _ hc heq ↦ h (heq ▸ List.mem_of_getLast? hc)

theorem NoSlashAtEnd.append_of_ne {more : String} (h : NoSlashAtEnd more) (hne : more ≠ "")
    (s : String) : NoSlashAtEnd (s ++ more) := by
  intro c hc
  have hlast := List.getLast?_eq_some_getLast (mt String.toList_eq_nil_iff.1 hne)
  rw [String.toList_append, List.getLast?_append, hlast, Option.some_or] at hc
  exact h c (hc ▸ hlast)

theorem exists_eq_append_of_isPrefixOf {start s : String}
    (h : start.toList.isPrefixOf s.toList = true) : ∃ rest, s = start ++ rest := by
  obtain ⟨rest, hrest⟩ := List.isPrefixOf_iff_prefix.1 h
  refine ⟨String.ofList rest, String.toList_inj.1 ?_⟩
  rw [String.toList_append, String.toList_ofList, hrest]

theorem isPrefixOf_append (start rest : String) :
    start.toList.isPrefixOf (start ++ rest).toList = true := by
  rw [List.isPrefixOf_iff_prefix, String.toList_append]
  exact List.prefix_append _ _

/-- A text that does not begin with a scheme of the web. -/
def IsSchemeless (s : String) : Prop :=
  ∀ scheme, Url.IsWeb scheme → ∀ more, s ≠ scheme ++ "://" ++ more

theorem isSchemeless_of_head? {s : String} (h : s.toList.head?.any (· != 'h') = true) :
    IsSchemeless s := by
  rintro scheme hscheme more rfl
  rw [String.toList_append] at h
  rcases hscheme with rfl | rfl
  · cases h
  · cases h

theorem IsSchemeless.after? {s : String} (h : IsSchemeless s) {scheme : String}
    (hscheme : Url.IsWeb scheme) : Text.after? s (scheme ++ "://") = none := by
  rw [Text.after?, if_neg]
  intro hstarts
  obtain ⟨more, hmore⟩ := exists_eq_append_of_isPrefixOf hstarts
  exact h scheme hscheme more hmore

theorem dropScheme_of_isSchemeless {s : String} (h : IsSchemeless s) : dropScheme s = s := by
  have hhttps : Text.after? s "https://" = none := h.after? (Or.inl rfl)
  have hhttp : Text.after? s "http://" = none := h.after? (Or.inr rfl)
  rw [dropScheme, hhttps, hhttp, Option.getD_none]

theorem dropScheme_https (rest : String) : dropScheme ("https" ++ "://" ++ rest) = rest := by
  have hstarts : Text.startsWith ("https" ++ "://" ++ rest) "https://" = true :=
    isPrefixOf_append "https://" rest
  have hdrop : ("https" ++ "://" ++ rest).toList.drop "https://".toList.length = rest.toList := by
    rw [String.toList_append]
    exact List.drop_left
  rw [dropScheme, Text.after?, hstarts, if_pos rfl, hdrop, String.ofList_toList]

theorem dropScheme_web {scheme : String} (h : Url.IsWeb scheme) (rest : String) :
    dropScheme (scheme ++ "://" ++ rest) = rest := by
  rcases h with rfl | rfl
  · exact dropScheme_https rest
  · have hother : Text.after? ("http" ++ "://" ++ rest) "https://" = none := by
      rw [Text.after?, Text.startsWith, String.toList_append]
      rfl
    have hstarts : Text.startsWith ("http" ++ "://" ++ rest) "http://" = true :=
      isPrefixOf_append "http://" rest
    have hdrop : ("http" ++ "://" ++ rest).toList.drop "http://".toList.length = rest.toList := by
      rw [String.toList_append]
      exact List.drop_left
    rw [dropScheme, hother, Text.after?, if_pos hstarts, hdrop, String.ofList_toList,
      Option.getD_some]

/-! ### Endpoints -/

namespace Url

/-- Names that hold something, and no slashes. -/
def AreNames (names : List String) : Prop := ∀ name ∈ names, name ≠ "" ∧ '/' ∉ name.toList

theorem noSlashAtEnd_trail {names : List String} (h : AreNames names) :
    NoSlashAtEnd (trail names) := by
  induction names with
  | nil =>
    intro c hc
    cases hc
  | cons name rest ih =>
    obtain ⟨hne, hslash⟩ := h name List.mem_cons_self
    have htrail : trail (name :: rest) = "/" ++ name ++ trail rest := String.join_cons
    rw [htrail]
    exact ((noSlashAtEnd_of_not_mem hslash).append_of_ne hne "/").append
      (ih fun other hother ↦ h other (List.mem_cons_of_mem _ hother))

/-- Behind a text without slashes names do not make up a scheme: after the first slash there is a
name. -/
theorem isSchemeless_trail {text : String} {names : List String} (htext : '/' ∉ text.toList)
    (hnames : AreNames names) : IsSchemeless (text ++ trail names) := by
  intro scheme hscheme more heq
  have hstart : '/' ∉ (scheme ++ ":").toList := by
    rcases hscheme with rfl | rfl
    · decide
    · decide
  have hsplit : scheme ++ "://" ++ more = scheme ++ ":" ++ ("//" ++ more) := by
    simp only [String.append_assoc]
    rfl
  have hdrop : ∀ (start rest : String), '/' ∉ start.toList →
      (start ++ rest).toList.dropWhile (· != '/') = rest.toList.dropWhile (· != '/') := by
    intro start rest hno
    have hnil : start.toList.dropWhile (· != '/') = [] :=
      List.dropWhile_eq_nil_iff.2 fun c hc ↦ bne_iff_ne.2 fun h ↦ hno (h ▸ hc)
    rw [String.toList_append, List.dropWhile_append, hnil]
    rfl
  have hafter := congrArg (fun s ↦ s.toList.dropWhile (· != '/')) (heq.trans hsplit)
  simp only [hdrop _ _ htext, hdrop _ _ hstart] at hafter
  rw [String.toList_append, toList_trail] at hafter
  cases names with
  | nil => cases hafter
  | cons name rest =>
    obtain ⟨hne, hslash⟩ := hnames name List.mem_cons_self
    have hlist : name.toList ++ behind rest = '/' :: more.toList := List.cons.inj hafter |>.2
    cases hname : name.toList with
    | nil => exact hne (String.toList_eq_nil_iff.1 hname)
    | cons c others =>
      rw [hname] at hlist hslash
      obtain rfl : c = '/' := (List.cons.inj hlist).1
      exact hslash List.mem_cons_self

theorem IsRegular.areNames {url : Url} (h : url.IsRegular) :
    AreNames (ServerPath.endpoint (filled url.pathSegments)) := by
  intro name hname
  have hfilled : name ∈ filled url.pathSegments := by
    simp only [ServerPath.endpoint] at hname
    split at hname
    · exact List.takeWhile_subset _ hname
    · exact List.takeWhile_subset _ hname
  obtain ⟨hmem, hne⟩ := List.mem_filter.1 hfilled
  refine ⟨?_, h.segments name hmem⟩
  rintro rfl
  cases hne

theorem isCommon_cases {scheme : String} (h : isCommon scheme = true) :
    IsWeb scheme ∨ scheme = "ws" ∨ scheme = "wss" ∨ scheme = "ftp" := by
  unfold isCommon defaultPort? at h
  split at h
  · exact Or.inl (Or.inr rfl)
  · exact Or.inl (Or.inl rfl)
  · exact Or.inr (Or.inl rfl)
  · exact Or.inr (Or.inr (Or.inl rfl))
  · exact Or.inr (Or.inr (Or.inr rfl))
  · cases h

/-- The scheme and host of an address are those of an address of the web, or begin otherwise. -/
theorem IsRegular.originWithin_cases {url : Url} (h : url.IsRegular) (depth : Nat) :
    (∃ scheme text, IsWeb scheme ∧ IsHostText text ∧
        originWithin depth url = scheme ++ "://" ++ text) ∨
      ∃ start text, originWithin depth url = start ++ text ∧ IsHostText text ∧
        (start ++ text).toList.head?.any (· != 'h') = true := by
  have hnull : "null" = "" ++ "null" ∧ IsHostText "null" ∧
      ("" ++ "null").toList.head?.any (· != 'h') = true := ⟨rfl, ⟨by decide, by decide⟩, rfl⟩
  induction depth generalizing url with
  | zero => exact Or.inr ⟨"", "null", hnull⟩
  | succ depth ih =>
    rw [originWithin]
    split
    · -- A blob belongs to where the address in its path does.
      split
      · next inner hinner => exact ih (parse_regular hinner)
      · exact Or.inr ⟨"", "null", hnull⟩
    · split
      · next authority hauthority =>
        split
        · next hcommon =>
          have htext := h.host authority hauthority hcommon
          rcases isCommon_cases hcommon with hweb | hother
          · exact Or.inl ⟨url.scheme, authority.text, hweb, htext, rfl⟩
          · refine Or.inr ⟨url.scheme ++ "://", authority.text, rfl, htext, ?_⟩
            rw [String.toList_append, String.toList_append]
            rcases hother with hscheme | hscheme | hscheme
            · rw [hscheme]
              rfl
            · rw [hscheme]
              rfl
            · rw [hscheme]
              rfl
        · exact Or.inr ⟨"", "null", hnull⟩
      · exact Or.inr ⟨"", "null", hnull⟩

end Url

namespace ServerPath

open Url

variable {server : String} {path : ServerPath}

theorem exists_url_of_parse (h : parse server = .ok path) :
    ∃ url, Url.parse server = .ok url ∧ ofUrl url = path := by
  unfold parse at h
  split at h
  · cases h
  · next url hurl => exact ⟨url, hurl, Except.ok.inj h⟩

/-- Behind its scheme an endpoint names no scheme, and it does not end in a slash. -/
theorem ingress_of_parse (h : parse server = .ok path) :
    NoSlashAtEnd path.ingress ∧ IsSchemeless path.ingress := by
  obtain ⟨url, hurl, rfl⟩ := exists_url_of_parse h
  have hregular := parse_regular hurl
  have hnames := hregular.areNames
  have htrail := noSlashAtEnd_trail hnames
  rcases hregular.originWithin_cases (url.pathText.length + 1) with
    ⟨scheme, text, hweb, ⟨-, hlike⟩, horigin⟩ | ⟨start, text, horigin, ⟨hne, hlike⟩, hhead⟩
  · have hslash := hlike.slash_not_mem
    have hingress :
        (ofUrl url).ingress = text ++ trail (endpoint (Url.filled url.pathSegments)) := by
      rw [ingress, ofUrl_eq, origin, horigin, String.append_assoc, dropScheme_web hweb]
    rw [hingress]
    exact ⟨(noSlashAtEnd_of_not_mem hslash).append htrail, isSchemeless_trail hslash hnames⟩
  · have hbase :
        (ofUrl url).base = start ++ text ++ trail (endpoint (Url.filled url.pathSegments)) := by
      rw [ofUrl_eq, origin, horigin]
    have hschemeless : IsSchemeless (ofUrl url).base := by
      refine isSchemeless_of_head? ?_
      obtain ⟨c, hc, hne⟩ := (Option.any_eq_true _ _).1 hhead
      rw [hbase, String.toList_append, List.head?_append, hc, Option.some_or]
      exact hne
    rw [ingress, dropScheme_of_isSchemeless hschemeless]
    refine ⟨?_, hschemeless⟩
    rw [hbase]
    exact ((noSlashAtEnd_of_not_mem hlike.slash_not_mem).append_of_ne hne start).append htrail

/-- An address of the web is behind an endpoint of the same scheme. -/
theorem base_of_web {scheme rest : String} (hscheme : IsWeb scheme)
    (h : parse (scheme ++ "://" ++ rest) = .ok path) :
    path.base = scheme ++ "://" ++ path.ingress := by
  obtain ⟨url, hurl, rfl⟩ := exists_url_of_parse h
  rw [parse_web hscheme] at hurl
  obtain ⟨authority, hauthority, hok⟩ := Switch.bind_eq_ok hurl
  obtain ⟨more, hmore⟩ : ∃ more, (ofUrl url).base = scheme ++ "://" ++ more := by
    refine ⟨authority.text ++ trail (endpoint (Url.filled url.pathSegments)), ?_⟩
    have horigin : url.origin = scheme ++ "://" ++ authority.text := by
      rw [← Except.ok.inj hok]
      exact origin_of_isWeb hscheme rfl
    rw [ofUrl_eq, horigin, ← String.append_assoc]
  rw [ingress, hmore, dropScheme_web hscheme]

/-- The endpoint is known again by `https` before its ingress, if that is its scheme. -/
theorem https_ingress_eq_base_iff :
    "https" ++ "://" ++ path.ingress = path.base ↔
      ∃ rest, path.base = "https" ++ "://" ++ rest := by
  constructor
  · exact fun h ↦ ⟨_, h.symm⟩
  · rintro ⟨rest, hrest⟩
    rw [ingress, hrest, dropScheme_https]

end ServerPath

/-! ### Spaces at endpoints -/

namespace Space

/-- The address of a space has a scheme of the web, and does not end in a slash. -/
theorem serverUrl_cases (s : Space) : ∃ scheme rest, Url.IsWeb scheme ∧
    s.serverUrl = scheme ++ "://" ++ rest ∧ NoSlashAtEnd rest := by
  have hend := noSlashAtEnd_dropSlashes s.ingress
  simp only [serverUrl]
  split
  · next hscheme =>
    rw [Bool.or_eq_true] at hscheme
    rcases hscheme with hhttps | hhttp
    · obtain ⟨rest, hrest⟩ := exists_eq_append_of_isPrefixOf hhttps
      rw [hrest] at hend
      exact ⟨"https", rest, Or.inl rfl, hrest, hend.of_append⟩
    · obtain ⟨rest, hrest⟩ := exists_eq_append_of_isPrefixOf hhttp
      rw [hrest] at hend
      exact ⟨"http", rest, Or.inr rfl, hrest, hend.of_append⟩
  · exact ⟨"https", dropSlashes s.ingress, Or.inl rfl, rfl, hend⟩

theorem serverUrl_congr {a b : Space} (h : dropSlashes a.ingress = dropSlashes b.ingress) :
    a.serverUrl = b.serverUrl := by
  rw [serverUrl, serverUrl, h]

theorem serverUrl_of_isSchemeless {s : Space} (h : IsSchemeless (dropSlashes s.ingress)) :
    s.serverUrl = "https" ++ "://" ++ dropSlashes s.ingress := by
  have hno : ∀ scheme, Url.IsWeb scheme →
      ((scheme ++ "://").toList.isPrefixOf (dropSlashes s.ingress).toList) = false := by
    intro scheme hscheme
    by_contra hprefix
    obtain ⟨more, hmore⟩ := exists_eq_append_of_isPrefixOf (Bool.not_eq_false _ ▸ hprefix)
    exact h scheme hscheme more hmore
  have hhttps : "https://".toList.isPrefixOf (dropSlashes s.ingress).toList = false :=
    hno "https" (Or.inl rfl)
  have hhttp : "http://".toList.isPrefixOf (dropSlashes s.ingress).toList = false :=
    hno "http" (Or.inr rfl)
  simp only [serverUrl, hhttps, hhttp, Bool.or_self, Bool.false_eq_true, if_false]
  rfl

/-- A space that is known by an endpoint has its address, but always with `https`. -/
theorem serverUrl_of_parse {server : String} {path : ServerPath} {s : Space}
    (h : ServerPath.parse server = .ok path) (hingress : s.ingress = path.ingress) :
    s.serverUrl = "https" ++ "://" ++ path.ingress := by
  obtain ⟨hend, hschemeless⟩ := ServerPath.ingress_of_parse h
  have hsame : dropSlashes s.ingress = path.ingress := by rw [hingress, dropSlashes_eq_self hend]
  rw [← hsame] at hschemeless ⊢
  exact serverUrl_of_isSchemeless hschemeless

end Space

end Wayfinder
