import Mathlib.Data.Nat.Find
import Wayfinder.Credential.Claims
import Wayfinder.Proofs.Encoding
import Wayfinder.Proofs.Endpoints

/-!
Whose credentials are. Octets in an alphabet without fillers are read back as they were
(`Base64.decode_encode`), and a token keeps its claims between its first two full stops, however
many fillers stand behind them (`Credential.claims_of_spells`). Main statement: a token that claims
an organization names it, whatever the plugin says; without such a claim, whether there is no token,
one that can not be read or one that claims something else, the first argument of the plugin that
names an organization does (`Credential.organizationOf_eq`).
-/

set_option autoImplicit false
set_option relaxedAutoImplicit false

namespace Wayfinder

/-! ### Octets in symbols -/

namespace Base64

variable {a : Base64}

/-- An alphabet without fillers that tells its symbols apart. -/
structure IsLegible (a : Base64) : Prop where
  filled : a.filled = false
  value?_symbol : ∀ n < 64, a.value? (a.symbol n) = some n
  symbol_ne_filler : ∀ n < 64, a.symbol n ≠ filler
  symbol_lt : ∀ n < 64, (a.symbol n).toNat < 128
  /-- No symbol is a full stop. -/
  symbol_ne_stop : ∀ n < 64, a.symbol n ≠ 0x2e

theorem isLegible_forUrls : forUrls.IsLegible where
  filled := rfl
  value?_symbol := by decide
  symbol_ne_filler := by decide
  symbol_lt := by decide
  symbol_ne_stop := by decide

/-- The numbers for octets: four for each three, and one more than there are octets at the end. -/
def sextets : List UInt8 → List ℕ
  | [] => []
  | [x] => [x.toNat / 4, x.toNat % 4 * 16]
  | [x, y] => [x.toNat / 4, x.toNat % 4 * 16 + y.toNat / 16, y.toNat % 16 * 4]
  | x :: y :: z :: rest =>
    x.toNat / 4 :: (x.toNat % 4 * 16 + y.toNat / 16) :: (y.toNat % 16 * 4 + z.toNat / 64) ::
      z.toNat % 64 :: sextets rest

theorem encode_eq (h : a.filled = false) (bytes : List UInt8) :
    a.encode bytes = (sextets bytes).map a.symbol := by
  fun_induction sextets bytes with
  | case1 => rfl
  | case2 x => simp [encode, h]
  | case3 x y => simp [encode, h]
  | case4 x y z rest ih => simp [encode, ih]

theorem sextets_lt (bytes : List UInt8) : ∀ n ∈ sextets bytes, n < 64 := by
  have hbyte (x : UInt8) : x.toNat < 256 := x.toNat_lt_size
  fun_induction sextets bytes with
  | case1 => exact List.forall_mem_nil _
  | case2 x =>
    have hx := hbyte x
    simp only [List.forall_mem_cons, List.not_mem_nil, false_implies, implies_true, and_true]
    omega
  | case3 x y =>
    have hx := hbyte x
    have hy := hbyte y
    simp only [List.forall_mem_cons, List.not_mem_nil, false_implies, implies_true, and_true]
    omega
  | case4 x y z rest ih =>
    have hx := hbyte x
    have hy := hbyte y
    have hz := hbyte z
    simp only [List.forall_mem_cons]
    exact ⟨by omega, by omega, by omega, by omega, ih⟩

theorem octets_one (x : UInt8) : octets (sextets [x]) = ([x], 0) := by
  have hx : x.toNat < 256 := x.toNat_lt_size
  have hfirst : x.toNat / 4 * 4 + x.toNat % 4 * 16 / 16 = x.toNat := by omega
  have hleft : x.toNat % 4 * 16 % 16 = 0 := by omega
  rw [sextets, octets, hfirst, hleft, Nat.toUInt8, UInt8.ofNat_toNat]

theorem octets_two (x y : UInt8) : octets (sextets [x, y]) = ([x, y], 0) := by
  have hx : x.toNat < 256 := x.toNat_lt_size
  have hy : y.toNat < 256 := y.toNat_lt_size
  have hfirst : x.toNat / 4 * 4 + (x.toNat % 4 * 16 + y.toNat / 16) / 16 = x.toNat := by omega
  have hsecond : (x.toNat % 4 * 16 + y.toNat / 16) % 16 * 16 + y.toNat % 16 * 4 / 4 = y.toNat := by
    omega
  have hleft : y.toNat % 16 * 4 % 4 = 0 := by omega
  simp only [sextets, octets, hfirst, hsecond, hleft, Nat.toUInt8, UInt8.ofNat_toNat]

theorem octets_three (x y z : UInt8) : octets (sextets [x, y, z]) = ([x, y, z], 0) := by
  have hx : x.toNat < 256 := x.toNat_lt_size
  have hy : y.toNat < 256 := y.toNat_lt_size
  have hz : z.toNat < 256 := z.toNat_lt_size
  have hfirst : x.toNat / 4 * 4 + (x.toNat % 4 * 16 + y.toNat / 16) / 16 = x.toNat := by omega
  have hsecond : (x.toNat % 4 * 16 + y.toNat / 16) % 16 * 16 +
      (y.toNat % 16 * 4 + z.toNat / 64) / 4 = y.toNat := by omega
  have hthird : (y.toNat % 16 * 4 + z.toNat / 64) % 4 * 64 + z.toNat % 64 = z.toNat := by omega
  simp only [sextets, octets, hfirst, hsecond, hthird, Nat.toUInt8, UInt8.ofNat_toNat]

theorem exists_sextets_cons {bytes : List UInt8} (h : bytes ≠ []) :
    ∃ first more, sextets bytes = first :: more := by
  fun_cases sextets bytes with
  | case1 => exact absurd rfl h
  | case2 x => exact ⟨_, _, rfl⟩
  | case3 x y => exact ⟨_, _, rfl⟩
  | case4 x y z rest => exact ⟨_, _, rfl⟩

section Legible

variable (ha : a.IsLegible)

include ha

theorem values_symbols {numbers : List ℕ} (h : ∀ n ∈ numbers, n < 64) (offset : ℕ) :
    a.values offset (numbers.map a.symbol) = .ok numbers := by
  induction numbers generalizing offset with
  | nil => rfl
  | cons n rest ih =>
    have hn := ha.value?_symbol n (h n List.mem_cons_self)
    have hrest := ih (fun k hk ↦ h k (List.mem_cons_of_mem _ hk)) (offset + 1)
    simp only [List.map_cons, values, hn, hrest]

/-- The last numbers of octets are read back when nothing is left over of them. -/
theorem decodeLast_symbols {numbers : List ℕ} {bytes : List UInt8}
    (h : ∀ n ∈ numbers, n < 64) (hlength : 2 ≤ numbers.length)
    (hoctets : octets numbers = (bytes, 0)) (offset : ℕ) :
    a.decodeLast offset (numbers.map a.symbol) = .ok bytes := by
  have hshown : ∀ b ∈ numbers.map a.symbol, (b != filler) = true := by
    intro b hb
    obtain ⟨n, hn, rfl⟩ := List.mem_map.1 hb
    exact bne_iff_ne.2 (ha.symbol_ne_filler n (h n hn))
  have htake : (numbers.map a.symbol).takeWhile (· != filler) = numbers.map a.symbol :=
    List.takeWhile_eq_self_iff.2 hshown
  have hdrop : (numbers.map a.symbol).dropWhile (· != filler) = [] :=
    List.dropWhile_eq_nil_iff.2 hshown
  have hne : (numbers.map a.symbol).isEmpty = false := by
    rw [List.isEmpty_map]
    exact List.isEmpty_eq_false_iff.2 (List.ne_nil_of_length_pos (by omega))
  have hlong : ¬(numbers.map a.symbol).length < 2 := by
    rw [List.length_map]
    omega
  simp only [decodeLast, htake, hdrop, values_symbols ha h, hne, hlong, hoctets, ha.filled,
    List.isEmpty_nil, Bool.not_true, Bool.false_and, Bool.false_eq_true, if_false, if_true]

theorem decodeFrom_sextets {bytes : List UInt8} (hne : bytes ≠ []) (offset : ℕ) :
    a.decodeFrom offset ((sextets bytes).map a.symbol) = .ok bytes := by
  have hlt := sextets_lt bytes
  fun_induction sextets bytes generalizing offset with
  | case1 => exact absurd rfl hne
  | case2 x => exact decodeLast_symbols ha hlt (Nat.le_refl 2) (octets_one x) offset
  | case3 x y => exact decodeLast_symbols ha hlt (Nat.le_succ 2) (octets_two x y) offset
  | case4 x y z rest ih =>
    cases rest with
    | nil => exact decodeLast_symbols ha hlt (Nat.le_add_left 2 2) (octets_three x y z) offset
    | cons w more =>
      obtain ⟨first, others, hfirst⟩ := exists_sextets_cons (List.cons_ne_nil w more)
      have hthree := octets_three x y z
      rw [hfirst] at ih hlt ⊢
      have hrest := ih (List.cons_ne_nil w more) (offset + 4)
        fun n hn ↦ hlt n (List.mem_append_right [_, _, _, _] hn)
      have hfour : ∀ n ∈ [x.toNat / 4, x.toNat % 4 * 16 + y.toNat / 16,
          y.toNat % 16 * 4 + z.toNat / 64, z.toNat % 64], n < 64 :=
        fun n hn ↦ hlt n (List.mem_append_left (first :: others) hn)
      have hvalues := values_symbols ha hfour offset
      simp only [List.map_cons, List.map_nil] at hrest hvalues ⊢
      simp only [sextets] at hthree
      rw [decodeFrom]
      simp only [hvalues, hrest, hthree, List.cons_append, List.nil_append]

/-- Octets are read back as they were. -/
theorem decode_encode (bytes : List UInt8) : a.decode (a.encode bytes) = .ok bytes := by
  rw [encode_eq ha.filled]
  cases bytes with
  | nil => rfl
  | cons x rest =>
    have hne : (sextets (x :: rest)).map a.symbol ≠ [] := by
      obtain ⟨first, others, hfirst⟩ := exists_sextets_cons (List.cons_ne_nil x rest)
      rw [hfirst]
      exact List.cons_ne_nil _ _
    obtain ⟨n, hn, hlast⟩ := List.mem_map.1 (List.getLast_mem hne)
    have hvalue : (a.value? (((sextets (x :: rest)).map a.symbol).getLast hne)).isNone = false := by
      rw [← hlast, ha.value?_symbol n (sextets_lt _ n hn)]
      rfl
    rw [decode, List.getLast?_eq_some_getLast hne]
    simp only [hvalue, Bool.and_false, Bool.false_eq_true, if_false]
    exact decodeFrom_sextets ha (List.cons_ne_nil x rest) 0

theorem of_mem_encode {b : UInt8} {bytes : List UInt8} (h : b ∈ a.encode bytes) :
    b.toNat < 128 ∧ b ≠ filler ∧ b ≠ 0x2e := by
  rw [encode_eq ha.filled] at h
  obtain ⟨n, hn, rfl⟩ := List.mem_map.1 h
  have hlt := sextets_lt bytes n hn
  exact ⟨ha.symbol_lt n hlt, ha.symbol_ne_filler n hlt, ha.symbol_ne_stop n hlt⟩

end Legible

/-- Octets in symbols, as a text. -/
def text (a : Base64) (bytes : List UInt8) : String :=
  String.ofList ((a.encode bytes).map fun b ↦ Char.ofNat b.toNat)

theorem toNat_ofNat {n : ℕ} (h : n < 128) : (Char.ofNat n).toNat = n := by
  have hvalid : n.isValidChar := Or.inl (by omega)
  have hchar : Char.ofNat n = Char.ofNatAux n hvalid := dif_pos hvalid
  rw [hchar]
  rfl

theorem toList_encode_text (ha : a.IsLegible) (bytes : List UInt8) :
    (Text.encode (a.text bytes)).toList = a.encode bytes := by
  rw [Text.toList_encode, text, String.toList_ofList, List.flatMap_map]
  calc (a.encode bytes).flatMap (fun b ↦ String.utf8EncodeChar (Char.ofNat b.toNat))
      = (a.encode bytes).flatMap (fun b ↦ [b]) := by
        refine List.flatMap_congr fun b hb ↦ ?_
        have hlt := (of_mem_encode ha hb).1
        have hnat := toNat_ofNat hlt
        rw [Text.utf8EncodeChar_of_lt (hnat.symm ▸ hlt), hnat, Nat.toUInt8, UInt8.ofNat_toNat]
    _ = a.encode bytes := List.flatMap_singleton' _

/-- A text of symbols has no fillers and no full stops. -/
theorem of_mem_text (ha : a.IsLegible) {c : Char} {bytes : List UInt8}
    (h : c ∈ (a.text bytes).toList) : c ≠ '=' ∧ c ≠ '.' := by
  rw [text, String.toList_ofList] at h
  obtain ⟨b, hb, rfl⟩ := List.mem_map.1 h
  obtain ⟨-, hfiller, hstop⟩ := of_mem_encode ha hb
  exact ⟨Url.ofNat_ne (by decide) fun heq ↦ hfiller (UInt8.toNat_inj.1 heq),
    Url.ofNat_ne (by decide) fun heq ↦ hstop (UInt8.toNat_inj.1 heq)⟩

end Base64

/-! ### Tokens -/

theorem Json.text?_eq_some_iff {json : Json} {s : String} :
    json.text? = some s ↔ json = .string s := by
  cases json <;> simp [Json.text?]

/-- The octets of a text spell the value that the text spells. -/
theorem Json.ofBytes_encode {s : String} {json : Json} (h : Json.parse? s = some json) :
    Json.ofBytes (Text.encode s).toList = .ok json := by
  have hbytes : (⟨(Text.encode s).toList.toArray⟩ : ByteArray) = Text.encode s := by
    rw [Text.toList_eq, Array.toArray_toList]
  rw [Json.ofBytes, hbytes, Text.decode_encode, Option.bind_some, h]

namespace Credential

variable {head token organization : String} {bytes : List UInt8} {fillers : ℕ} {json : Json}

/-- The first two parts of a token: one of any kind, and octets in symbols with some fillers behind
them. -/
def spell (head : String) (bytes : List UInt8) (fillers : ℕ) : String :=
  head ++ "." ++ (Base64.forUrls.text bytes ++ String.ofList (List.replicate fillers '='))

/-- A token of two parts, or of more. -/
inductive Spells (head : String) (bytes : List UInt8) (fillers : ℕ) : String → Prop
  | alone : Spells head bytes fillers (spell head bytes fillers)
  | followed (tail : String) : Spells head bytes fillers (spell head bytes fillers ++ "." ++ tail)

theorem pieces_spell (hhead : '.' ∉ head.toList) (bytes : List UInt8) (fillers : ℕ) :
    Text.pieces '.' (spell head bytes fillers).toList =
      [head.toList, (Base64.forUrls.text bytes).toList ++ List.replicate fillers '='] := by
  have hpayload : '.' ∉ (Base64.forUrls.text bytes).toList ++ List.replicate fillers '=' := by
    intro h
    rcases List.mem_append.1 h with hsymbol | hfiller
    · exact (Base64.of_mem_text Base64.isLegible_forUrls hsymbol).2 rfl
    · exact absurd (List.eq_of_mem_replicate hfiller) (by decide)
  have hspell : (spell head bytes fillers).toList = head.toList ++
      '.' :: ((Base64.forUrls.text bytes).toList ++ List.replicate fillers '=') := by
    simp only [spell, String.toList_append, String.toList_ofList, List.append_assoc]
    rfl
  rw [hspell, Text.pieces_append, Text.pieces_of_not_mem hhead, Text.pieces_of_not_mem hpayload]
  rfl

theorem Spells.exists_split (hspells : Spells head bytes fillers token)
    (hhead : '.' ∉ head.toList) :
    ∃ more, Text.split token '.' = head ::
      (Base64.forUrls.text bytes ++ String.ofList (List.replicate fillers '=')) :: more := by
  have hpieces := pieces_spell hhead bytes fillers
  have hpayload : String.ofList
      ((Base64.forUrls.text bytes).toList ++ List.replicate fillers '=') =
        Base64.forUrls.text bytes ++ String.ofList (List.replicate fillers '=') := by
    rw [String.ofList_append, String.ofList_toList]
  cases hspells with
  | alone =>
    refine ⟨[], ?_⟩
    rw [Text.split, hpieces, List.map_cons, List.map_cons, List.map_nil, String.ofList_toList,
      hpayload]
  | followed tail =>
    have htoken : (spell head bytes fillers ++ "." ++ tail).toList =
        (spell head bytes fillers).toList ++ '.' :: tail.toList := by
      rw [String.toList_append, String.toList_append, List.append_assoc]
      rfl
    refine ⟨Text.split tail '.', ?_⟩
    rw [Text.split, htoken, Text.pieces_append, hpieces, List.map_append, List.map_cons,
      List.map_cons, List.map_nil, String.ofList_toList, hpayload]
    rfl

/-- Fillers are no part of what stands before them. -/
theorem dropEndWhile_fillers (bytes : List UInt8) (fillers : ℕ) :
    Text.dropEndWhile (· == '=')
      (Base64.forUrls.text bytes ++ String.ofList (List.replicate fillers '=')).toList =
        (Base64.forUrls.text bytes).toList := by
  have hfillers : ∀ c ∈ List.replicate fillers '=', (c == '=') = true :=
    fun c hc ↦ beq_iff_eq.2 (List.eq_of_mem_replicate hc)
  have hclosed : Text.dropEndWhile (· == '=') (Base64.forUrls.text bytes).toList =
      (Base64.forUrls.text bytes).toList := by
    refine Text.dropEndWhile_eq_self_iff.2 fun c hc ↦ beq_eq_false_iff_ne.2 ?_
    exact (Base64.of_mem_text Base64.isLegible_forUrls (List.mem_of_getLast? hc)).1
  rw [Text.dropEndWhile] at hclosed
  rw [String.toList_append, String.toList_ofList, Text.dropEndWhile, List.reverse_append,
    List.dropWhile_append_of_pos fun c hc ↦ hfillers c (List.mem_reverse.1 hc), hclosed]

/-- A token claims what its second part spells. -/
theorem claims_of_spells (hspells : Spells head bytes fillers token) (hhead : '.' ∉ head.toList) :
    claims token = Json.ofBytes bytes := by
  obtain ⟨more, hsplit⟩ := hspells.exists_split hhead
  rw [claims, hsplit]
  simp only [dropEndWhile_fillers, String.ofList_toList,
    Base64.toList_encode_text Base64.isLegible_forUrls,
    Base64.decode_encode Base64.isLegible_forUrls]

/-- A token names an organization when it has claims that do. -/
theorem claimedOrganization_eq_some_iff :
    claimedOrganization token = some organization ↔
      ∃ json, claims token = .ok json ∧
        json.member? organizationClaim = some (.string organization) := by
  rw [claimedOrganization]
  cases hclaims : claims token with
  | error fault => simp only [reduceCtorEq, false_and, exists_false]
  | ok json =>
    simp only [Except.ok.injEq, exists_eq_left', Option.bind_eq_some_iff]
    constructor
    · rintro ⟨value, hvalue, htext⟩
      exact Json.text?_eq_some_iff.1 htext ▸ hvalue
    · exact fun hvalue ↦ ⟨_, hvalue, rfl⟩

/-! ### Arguments of a plugin -/

/-- Arguments that begin with one that names an organization, together with the name or before
it. -/
inductive Names : List String → String → Prop
  | joined (name : String) (rest : List String) :
    Names ((organizationArgument ++ "=" ++ name) :: rest) name
  | apart (name : String) (rest : List String) : Names (organizationArgument :: name :: rest) name

variable {args rest : List String} {arg name : String}

theorem argumentOrganization_of_names (h : Names args name) :
    argumentOrganization args = some name := by
  cases h with
  | joined name rest =>
    have hafter : Text.after? (organizationArgument ++ "=" ++ name) (organizationArgument ++ "=") =
        some name := by
      have htext : (organizationArgument ++ "=" ++ name).toList =
          (organizationArgument ++ "=").toList ++ name.toList := String.toList_append
      rw [Text.after?, Text.startsWith, isPrefixOf_append, if_pos rfl, htext, List.drop_left,
        String.ofList_toList]
    rw [argumentOrganization.eq_def]
    simp only [hafter]
  | apart name rest =>
    have hafter : Text.after? organizationArgument (organizationArgument ++ "=") = none := by decide
    rw [argumentOrganization.eq_def]
    simp only [hafter, if_true]

/-- Arguments that do not begin with one that names an organization name what the rest names. -/
theorem argumentOrganization_cons (h : ∀ name, ¬Names (arg :: rest) name) :
    argumentOrganization (arg :: rest) = argumentOrganization rest := by
  have hafter : Text.after? arg (organizationArgument ++ "=") = none := by
    rw [Text.after?, Text.startsWith]
    refine if_neg fun hprefix ↦ ?_
    obtain ⟨name, rfl⟩ := exists_eq_append_of_isPrefixOf hprefix
    exact h name (.joined name rest)
  rw [argumentOrganization.eq_def]
  simp only [hafter]
  by_cases harg : arg = organizationArgument
  · subst harg
    cases rest with
    | nil => rfl
    | cons name more => exact absurd (.apart name more) (h name)
  · exact if_neg harg

/-- Arguments name an organization where the first of them does that names one at all. -/
def FirstNames (args : List String) (name : String) : Prop :=
  ∃ i, Names (args.drop i) name ∧ ∀ j < i, ∀ other, ¬Names (args.drop j) other

theorem argumentOrganization_eq_some_iff :
    argumentOrganization args = some name ↔ FirstNames args name := by
  constructor
  · intro h
    induction args with
    | nil => cases h
    | cons arg rest ih =>
      by_cases hfirst : ∃ other, Names (arg :: rest) other
      · obtain ⟨other, hother⟩ := hfirst
        rw [argumentOrganization_of_names hother] at h
        obtain rfl := Option.some.inj h
        exact ⟨0, hother, fun j hj ↦ absurd hj (Nat.not_lt_zero j)⟩
      · rw [argumentOrganization_cons (not_exists.1 hfirst)] at h
        obtain ⟨i, hnames, hbefore⟩ := ih h
        refine ⟨i + 1, hnames, fun j hj ↦ ?_⟩
        cases j with
        | zero => exact not_exists.1 hfirst
        | succ j => exact hbefore j (Nat.lt_of_succ_lt_succ hj)
  · rintro ⟨i, hnames, hbefore⟩
    induction i generalizing args with
    | zero => exact argumentOrganization_of_names hnames
    | succ i ih =>
      cases args with
      | nil => cases hnames
      | cons arg rest =>
        rw [argumentOrganization_cons (hbefore 0 (Nat.succ_pos i))]
        exact ih hnames fun j hj ↦ hbefore (j + 1) (Nat.succ_lt_succ hj)

/-- Arguments name no organization when nowhere among them one does. -/
theorem argumentOrganization_eq_none_iff :
    argumentOrganization args = none ↔ ∀ i name, ¬Names (args.drop i) name := by
  rw [Option.eq_none_iff_forall_ne_some]
  constructor
  · intro h i name hnames
    classical
    have hexists : ∃ i name, Names (args.drop i) name := ⟨i, name, hnames⟩
    obtain ⟨first, hfirst⟩ := Nat.find_spec hexists
    refine h first (argumentOrganization_eq_some_iff.2 ⟨Nat.find hexists, hfirst, ?_⟩)
    exact fun j hj ↦ not_exists.1 (Nat.find_min hexists hj)
  · intro h name hname
    obtain ⟨i, hnames, -⟩ := argumentOrganization_eq_some_iff.1 hname
    exact h i name hnames

/-! ### Users -/

variable {user : User}

/-- The token of a user can be read, and its claims name an organization. -/
def Claims (user : User) (organization : String) : Prop :=
  ∃ token json, user.token = some token ∧ claims token = .ok json ∧
    json.member? organizationClaim = some (.string organization)

theorem claims_iff :
    Claims user organization ↔ user.token.bind claimedOrganization = some organization := by
  simp only [Claims, Option.bind_eq_some_iff, claimedOrganization_eq_some_iff, exists_and_left]

/-- A token that claims an organization names it, however the claims are spelled and whatever the
plugin says. Where no token does, the first argument of the plugin that names an organization names
it, and nothing does where there is no such argument. -/
theorem organizationOf_eq (user : User) :
    (∀ head bytes fillers token json organization, '.' ∉ head.toList →
      Spells head bytes fillers token → Json.ofBytes bytes = .ok json →
      json.member? organizationClaim = some (.string organization) →
        claims token = .ok json ∧
          (user.token = some token → organizationOf user = some organization)) ∧
    ((∀ organization, ¬Claims user organization) →
      (∀ organization, organizationOf user = some organization ↔
        ∃ plugin, user.plugin = some plugin ∧ FirstNames plugin.args organization) ∧
      (organizationOf user = none ↔
        ∀ plugin, user.plugin = some plugin →
          ∀ i organization, ¬Names (plugin.args.drop i) organization)) := by
  refine ⟨fun head bytes fillers token json organization hhead hspells hjson hmember ↦ ?_,
    fun hunclaimed ↦ ?_⟩
  · have hclaims : claims token = .ok json := (claims_of_spells hspells hhead).trans hjson
    refine ⟨hclaims, fun htoken ↦ ?_⟩
    rw [organizationOf, claims_iff.1 ⟨token, json, htoken, hclaims, hmember⟩, Option.some_or]
  · have hnone : user.token.bind claimedOrganization = none :=
      Option.eq_none_iff_forall_ne_some.2 fun organization hsome ↦
        hunclaimed organization (claims_iff.2 hsome)
    have hplugin : organizationOf user =
        user.plugin.bind fun plugin ↦ argumentOrganization plugin.args := by
      rw [organizationOf, hnone, Option.none_or]
    rw [hplugin]
    refine ⟨fun organization ↦ ?_, ?_⟩
    · simp only [Option.bind_eq_some_iff, argumentOrganization_eq_some_iff]
    · simp only [Option.bind_eq_none_iff, argumentOrganization_eq_none_iff]

/-- Claims in a token of three parts, with a filler, beside a plugin that names another
organization; and the same plugin beside a token that is opaque, where the first of two arguments
takes the one behind it for the name. -/
theorem organizationOf_eq_acme :
    let plugin : Plugin :=
      { command := "up", args := ["token", "--organization", "--organization=b", "c"] }
    let token := "header.eyJvcmdhbml6YXRpb24iOiJhY21lIn0=.seal"
    (∃ json, claims token = .ok json ∧
        json.member? organizationClaim = some (.string "acme")) ∧
      organizationOf { token := some token, plugin := some plugin } = some "acme" ∧
      organizationOf { token := some "opaque", plugin := some plugin } =
        some "--organization=b" := by
  intro plugin token
  have hspells : Spells "header"
      (Text.encode "\x7b\"organization\":\"acme\"\x7d").toList 1 token := by
    have htoken : token = spell "header"
        (Text.encode "\x7b\"organization\":\"acme\"\x7d").toList 1 ++ "." ++ "seal" := by
      rw [Text.toList_encode]
      rfl
    exact htoken ▸ .followed "seal"
  have hread : ((Json.parse? "\x7b\"organization\":\"acme\"\x7d").bind
      (·.member? organizationClaim)).bind Json.text? = some "acme" := by decide +kernel
  obtain ⟨value, hvalue, htext⟩ := Option.bind_eq_some_iff.1 hread
  obtain ⟨json, hparse, hmember⟩ := Option.bind_eq_some_iff.1 hvalue
  rw [Json.text?_eq_some_iff.1 htext] at hmember
  obtain ⟨hclaims, horganization⟩ :=
    (organizationOf_eq { token := some token, plugin := some plugin }).1 "header" _ 1 token json
      "acme" (by decide) hspells (Json.ofBytes_encode hparse) hmember
  refine ⟨⟨json, hclaims, hmember⟩, horganization rfl, ?_⟩
  have hopaque : claimedOrganization "opaque" = none := by decide
  have hunclaimed (organization : String) :
      ¬Claims { token := some "opaque", plugin := some plugin } organization := by
    rw [claims_iff, Option.bind_some, hopaque]
    exact Option.some_ne_none organization ∘ Eq.symm
  have hfirst : FirstNames plugin.args "--organization=b" :=
    argumentOrganization_eq_some_iff.1 (by decide)
  exact (((organizationOf_eq { token := some "opaque", plugin := some plugin }).2 hunclaimed).1
    "--organization=b").2 ⟨plugin, rfl, hfirst⟩

end Credential

end Wayfinder
