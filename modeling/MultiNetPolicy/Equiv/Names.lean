import MultiNetPolicy.Server.Apply

/-!
# Chain names

The names of the chains of a policy: its own chain, and a ports and a peers chain for each of its
rules.  They are made by joining names and fixed words with dashes, cutting what is longer than 255
bytes (`truncateNftName`), and hashing what is longer than 31 (`shortName`).

* `generated_names_legal`: what `nftNameWithSuffix` and `truncateNftName` return.
* `chainNameOf_not_base`: no chain of a policy is a base, entry or common chain.
* `chainNames_distinct_iff`: when two chains of policies have the same name, hash collisions apart.
-/

namespace MultiNetPolicy

open ByteString

/-- The two halves of a policy. -/
inductive Direction where
  | ingress
  | egress
  deriving DecidableEq, Repr

/-- There are two directions. -/
theorem Direction.forall_iff {P : Direction → Prop} : (∀ d, P d) ↔ P .ingress ∧ P .egress := by
  constructor
  · exact fun h => ⟨h .ingress, h .egress⟩
  · rintro ⟨h₁, h₂⟩ (_ | _)
    · exact h₁
    · exact h₂

instance {P : Direction → Prop} [DecidablePred P] : Decidable (∀ d, P d) :=
  decidable_of_iff _ Direction.forall_iff.symm

/-- The entry chain of a direction. -/
def Direction.entry : Direction → Str
  | ingress => ingressChain
  | egress => egressChain

/-- The chains of a policy in one direction. -/
inductive ChainRole where
  | policy
  | ports (index : Nat)
  | peers (index : Nat)
  deriving DecidableEq, Repr

/-- The name of a policy's chain before `addChain` shortens it. -/
def chainFullName (d : Direction) (p : MultiNetworkPolicy) : ChainRole → Str
  | .policy => policyChainFullName d.entry p
  | .ports i => Render.portsChainName (policyChainFullName d.entry p) i
  | .peers i => Render.peersChainName (policyChainFullName d.entry p) i

/-- The name of a policy's chain. -/
def chainNameOf (d : Direction) (p : MultiNetworkPolicy) (role : ChainRole) : Str :=
  shortName (chainFullName d p role)

/-- The names of the chains every run has. -/
def baseChainNames : List Str :=
  [str "input", str "output", str "prerouting", ingressChain, egressChain,
    commonChainName ingressChain, commonChainName egressChain]

/-! ### Characters -/

/-- The characters of Kubernetes names. -/
def isNameChar (b : UInt8) : Bool := isLowerAlphanumeric b || b == 0x2d || b == 0x2e

/-- The characters that `sanitizeNftChar` keeps. -/
def isCleanChar (b : UInt8) : Bool := b < 0x80 && sanitizeNftChar b.toNat == b

/-- Bytes are checked by going through all of them. -/
theorem forall_uint8 {P : UInt8 → Prop} (h : ∀ n < 256, P (UInt8.ofNat n)) (b : UInt8) : P b := by
  have hb := h b.toNat (UInt8.toNat_lt b)
  rwa [UInt8.ofNat_toNat] at hb

/-- What Kubernetes allows in names needs no replacement. -/
theorem isCleanChar_of_isNameChar : ∀ b, isNameChar b = true → isCleanChar b = true :=
  forall_uint8 (by decide +kernel)

theorem isCleanChar_of_isHex : ∀ b, isHex b = true → isCleanChar b = true :=
  forall_uint8 (by decide +kernel)

theorem isHex_of_isDigit {b : UInt8} (h : isDigit b = true) : isHex b = true := by
  rw [isHex, h, Bool.true_or]

/-- A string that needs no sanitising. -/
def Clean (s : Str) : Prop := ∀ b ∈ s, isCleanChar b = true

namespace Clean

theorem append {a b : Str} (ha : Clean a) (hb : Clean b) : Clean (a ++ b) := by
  intro c hc
  rcases List.mem_append.1 hc with hc | hc
  · exact ha c hc
  · exact hb c hc

theorem ofAll {s : Str} (h : s.all isCleanChar = true) : Clean s := List.all_eq_true.1 h

theorem take {s : Str} (h : Clean s) (n : Nat) : Clean (s.take n) :=
  fun b hb => h b (List.mem_of_mem_take hb)

theorem cons {b : UInt8} {s : Str} (hb : isCleanChar b = true) (hs : Clean s) : Clean (b :: s) := by
  intro c hc
  rcases List.mem_cons.1 hc with rfl | hc
  · exact hb
  · exact hs c hc

theorem decimal (n : Nat) : Clean (decimal n) := fun b hb =>
  isCleanChar_of_isHex b (isHex_of_isDigit (isDigit_of_mem_decimal hb))

theorem hexPad (w n : Nat) : Clean (hexPad w n) := fun b hb =>
  isCleanChar_of_isHex b (isHex_of_mem_hexPad hb)

/-- Clean texts stay as they are. -/
theorem mapRunes {s : Str} (h : Clean s) : mapRunes sanitizeNftChar s = s := by
  have hascii : ∀ b ∈ s, b < 0x80 := by
    intro b hb
    have hclean := h b hb
    rw [isCleanChar, Bool.and_eq_true, decide_eq_true_iff] at hclean
    exact hclean.1
  rw [mapRunes_of_ascii hascii]
  refine (List.map_congr_left fun b hb => ?_).trans (List.map_id s)
  have hclean := h b hb
  rw [isCleanChar, Bool.and_eq_true, beq_iff_eq] at hclean
  exact hclean.2

end Clean

/-- Every byte of a text is a separator or in one of its parts. -/
theorem mem_of_split (sep : UInt8) : ∀ {s : Str} {b : UInt8}, b ∈ s →
    b = sep ∨ ∃ part ∈ split sep s, b ∈ part
  | c :: cs, b, hb => by
    rw [split]
    by_cases hc : c = sep
    · rw [if_pos hc]
      rcases List.mem_cons.1 hb with rfl | hb
      · exact .inl hc
      · rcases mem_of_split sep hb with h | ⟨part, hpart, hb⟩
        · exact .inl h
        · exact .inr ⟨part, List.mem_cons_of_mem _ hpart, hb⟩
    · rw [if_neg hc]
      rcases List.mem_cons.1 hb with rfl | hb
      · split
        · exact .inr ⟨[b], List.mem_cons_self .., List.mem_cons_self ..⟩
        · exact .inr ⟨_, List.mem_cons_self .., List.mem_cons_self ..⟩
      · rcases mem_of_split sep hb with h | ⟨part, hpart, hb⟩
        · exact .inl h
        · refine .inr ?_
          split
          · rename_i hnil
            rw [hnil] at hpart
            cases hpart
          · rename_i q qs hcons
            rw [hcons] at hpart
            rcases List.mem_cons.1 hpart with rfl | hpart
            · exact ⟨_, List.mem_cons_self .., List.mem_cons_of_mem _ hb⟩
            · exact ⟨part, List.mem_cons_of_mem _ hpart, hb⟩

/-- The characters of one label. -/
theorem isNameChar_of_isDNSPart {s : Str} (h : isDNSPart s = true) {b : UInt8} (hb : b ∈ s) :
    isNameChar b = true := by
  unfold isDNSPart at h
  simp only [Bool.and_eq_true, List.all_eq_true] at h
  rw [isNameChar, h.1.1 b hb, Bool.true_or]

namespace MultiNetworkPolicy

/-- The characters of a namespace. -/
theorem isNameChar_of_mem_namespace (p : MultiNetworkPolicy) {b : UInt8} (hb : b ∈ p.namespace) :
    isNameChar b = true := by
  have hvalid := p.namespace_valid
  rw [isDNS1123Label, Bool.and_eq_true] at hvalid
  exact isNameChar_of_isDNSPart hvalid.2 hb

/-- The characters of a policy name. -/
theorem isNameChar_of_mem_name (p : MultiNetworkPolicy) {b : UInt8} (hb : b ∈ p.name) :
    isNameChar b = true := by
  have hvalid := p.name_valid
  rw [isDNS1123Subdomain, Bool.and_eq_true, List.all_eq_true] at hvalid
  rcases mem_of_split 0x2e hb with rfl | ⟨part, hpart, hb⟩
  · rfl
  · exact isNameChar_of_isDNSPart (hvalid.2 part hpart) hb

end MultiNetworkPolicy

/-- Names of policies need no replacement. -/
theorem clean_policyRuleNamespacedName (p : MultiNetworkPolicy) :
    Clean (policyRuleNamespacedName p) := by
  refine Clean.append (Clean.append (fun b hb => ?_) (.ofAll (by decide))) fun b hb => ?_
  · exact isCleanChar_of_isNameChar b (p.isNameChar_of_mem_namespace hb)
  · exact isCleanChar_of_isNameChar b (p.isNameChar_of_mem_name hb)

/-! ### Cut names -/

/-- What replaces a character is clean. -/
theorem isCleanChar_sanitizeNftChar (r : Nat) : isCleanChar (sanitizeNftChar r) = true := by
  by_cases hr : r < 128
  · have hascii : ∀ r < 128, isCleanChar (sanitizeNftChar r) = true := by decide +kernel
    exact hascii r hr
  · have hother : sanitizeNftChar r = 0x5f := by
      unfold sanitizeNftChar
      refine if_neg ?_
      simp only [Bool.or_eq_true, Bool.and_eq_true, decide_eq_true_eq, beq_iff_eq]
      omega
    rw [hother]
    decide

/-- Replacing cleans any text. -/
theorem clean_mapRunes (s : Str) : Clean (mapRunes sanitizeNftChar s) := by
  intro b hb
  obtain ⟨r, -, rfl⟩ := List.mem_map.1 hb
  exact isCleanChar_sanitizeNftChar r

/-- A name that does not fit keeps its beginning and gets the hash of the whole, or is a part of
that hash when there is no room for more. -/
theorem truncateNftName_eq (name : Str) (maxLen : Int) :
    truncateNftName name maxLen =
      if maxLen ≤ 0 then []
      else if (mapRunes sanitizeNftChar name).length ≤ maxLen then mapRunes sanitizeNftChar name
      else if maxLen ≤ 9 then (hexPad 8 (fnv32a name)).take maxLen.toNat
      else (mapRunes sanitizeNftChar name).take (maxLen - 9).toNat ++
        0x2d :: hexPad 8 (fnv32a name) := by
  have hlen := hexPad_length (fnv32a_lt name)
  have hhash : (if maxLen < ((hexPad 8 (fnv32a name)).length : Int) then
      (hexPad 8 (fnv32a name)).take maxLen.toNat else hexPad 8 (fnv32a name)) =
      (hexPad 8 (fnv32a name)).take maxLen.toNat := by
    split
    · rfl
    · exact (List.take_of_length_le (by omega)).symm
  unfold truncateNftName
  simp only [List.drop_one, List.tail_cons, List.length_cons, hhash]
  simp only [hlen, Nat.reduceAdd, Nat.cast_ofNat]

section Cut

variable (name : Str) (maxLen : Int)

/-- Cut names are clean, with the hash that they get. -/
theorem clean_truncateNftName : Clean (truncateNftName name maxLen) := by
  have hclean := clean_mapRunes name
  have hhash : Clean (hexPad 8 (fnv32a name)) := .hexPad _ _
  rw [truncateNftName_eq]
  split
  · exact fun b hb => absurd hb List.not_mem_nil
  split
  · exact hclean
  split
  · exact hhash.take _
  · exact (hclean.take _).append (.cons (by decide) hhash)

/-- A cut name is not longer than it may be; without any room it is empty. -/
theorem length_truncateNftName_le :
    ((truncateNftName name maxLen).length : Int) ≤ max maxLen 0 := by
  have hlen := hexPad_length (fnv32a_lt name)
  rw [truncateNftName_eq]
  split
  · exact le_max_right _ _
  refine le_trans ?_ (le_max_left _ _)
  split
  · assumption
  split
  · rw [List.length_take]
    omega
  · rw [List.length_append, List.length_take, List.length_cons, hlen]
    omega

/-- Names that fit are not cut. -/
theorem truncateNftName_of_fits (hfits : (mapRunes sanitizeNftChar name).length ≤ maxLen) :
    truncateNftName name maxLen = mapRunes sanitizeNftChar name := by
  rw [truncateNftName_eq, if_pos hfits]
  split
  · exact (List.length_eq_zero_iff.1 (by omega)).symm
  · rfl

end Cut

/-- A name that is cut already is not cut again. -/
theorem truncateNftName_truncateNftName (name : Str) (maxLen : Nat) :
    truncateNftName (truncateNftName name maxLen) maxLen = truncateNftName name maxLen := by
  have hkept := (clean_truncateNftName name maxLen).mapRunes
  have hle := length_truncateNftName_le name maxLen
  rw [truncateNftName_of_fits _ _ (by rw [hkept]; omega), hkept]

/-- A clean name that is too long keeps its beginning and gets the hash of the whole. -/
theorem truncateNftName_of_clean {name : Str} {maxLen : Nat} (hname : Clean name)
    (hmax : 9 < maxLen) :
    truncateNftName name maxLen = if name.length ≤ maxLen then name
      else name.take (maxLen - 9) ++ 0x2d :: hexPad 8 (fnv32a name) := by
  have htake : ((maxLen : Int) - 9).toNat = maxLen - 9 := by omega
  rw [truncateNftName_eq, if_neg (by omega), hname.mapRunes, htake,
    if_neg (show ¬ (maxLen : Int) ≤ 9 by omega)]
  simp only [Nat.cast_le]

section Truncate

variable {a b : Str} {maxLen : Nat} (ha : Clean a) (hmax : 9 < maxLen)
include ha hmax

theorem truncateNftName_eq_self (hlen : a.length ≤ maxLen) : truncateNftName a maxLen = a := by
  rw [truncateNftName_of_clean ha hmax, if_pos hlen]

/-- A cut name is exactly as long as it may be. -/
theorem truncateNftName_length_of_lt (hlen : maxLen < a.length) :
    (truncateNftName a maxLen).length = maxLen := by
  rw [truncateNftName_of_clean ha hmax, if_neg (by omega), List.length_append, List.length_take,
    List.length_cons, hexPad_length (fnv32a_lt a)]
  omega

/-- Cutting makes no name longer. -/
theorem truncateNftName_length_le : (truncateNftName a maxLen).length ≤ a.length := by
  by_cases hlen : a.length ≤ maxLen
  · rw [truncateNftName_eq_self ha hmax hlen]
  · rw [truncateNftName_length_of_lt ha hmax (by omega)]
    omega

/-- Cutting keeps the beginning of a name. -/
theorem take_truncateNftName {n : Nat} (hn : n ≤ maxLen - 9) :
    (truncateNftName a maxLen).take n = a.take n := by
  rw [truncateNftName_of_clean ha hmax]
  split
  · rfl
  · rename_i hlen
    have htake : n ≤ (a.take (maxLen - 9)).length := by
      rw [List.length_take]
      omega
    rw [List.take_append_of_le_length htake, List.take_take, Nat.min_eq_left hn]

/-- Two names that are cut to the same one are equal, or one of them is the cut form of the other,
or their hashes collide. -/
theorem eq_of_truncateNftName_eq (hb : Clean b)
    (h : truncateNftName a maxLen = truncateNftName b maxLen) :
    a = b ∨ b = truncateNftName a maxLen ∨ a = truncateNftName b maxLen ∨
      (maxLen < a.length ∧ maxLen < b.length ∧ fnv32a a = fnv32a b) := by
  by_cases hla : a.length ≤ maxLen
  · rw [truncateNftName_eq_self ha hmax hla] at h
    exact .inr (.inr (.inl h))
  · by_cases hlb : b.length ≤ maxLen
    · rw [truncateNftName_eq_self hb hmax hlb] at h
      exact .inr (.inl h.symm)
    · rw [truncateNftName_of_clean ha hmax, truncateNftName_of_clean hb hmax, if_neg hla,
        if_neg hlb] at h
      have hlen : (0x2d :: hexPad 8 (fnv32a a)).length = (0x2d :: hexPad 8 (fnv32a b)).length := by
        rw [List.length_cons, List.length_cons, hexPad_length (fnv32a_lt a),
          hexPad_length (fnv32a_lt b)]
      have hsuffix := (List.append_inj' h hlen).2
      rw [List.cons.injEq] at hsuffix
      exact .inr (.inr (.inr ⟨by omega, by omega, hexPad_injective 8 hsuffix.2⟩))

end Truncate

/-! ### The chains of a policy and the base chains -/

/-- The room that an entry chain's name leaves for the name of a policy. -/
def Direction.room (d : Direction) : Nat := nftNameMaxLen - d.entry.length - 1

theorem Direction.lt_room (d : Direction) : 9 < d.room := by
  cases d <;> decide

/-- The name of a policy chain: the entry chain, and the policy in the room that is left. -/
theorem policyChainFullName_eq (d : Direction) (p : MultiNetworkPolicy) :
    policyChainFullName d.entry p =
      d.entry ++ str "-" ++ truncateNftName (policyRuleNamespacedName p) d.room := by
  cases d <;> rfl

theorem clean_policyChainFullName (d : Direction) (p : MultiNetworkPolicy) :
    Clean (policyChainFullName d.entry p) := by
  have hentry : Clean (d.entry ++ str "-") := by
    cases d <;> exact .ofAll (by decide)
  exact hentry.append (clean_truncateNftName _ _)

/-- The last byte is a hexadecimal digit. -/
def endsHex (s : Str) : Bool := s.getLast?.any isHex

theorem endsHex_append {a b : Str} (hb : b ≠ []) : endsHex (a ++ b) = endsHex b := by
  rw [endsHex, endsHex, List.getLast?_append_of_ne_nil _ hb]

/-- A text of hexadecimal digits ends in one. -/
theorem endsHex_of_forall {s : Str} (hs : s ≠ []) (h : ∀ b ∈ s, isHex b = true) :
    endsHex s = true := by
  rw [endsHex, List.getLast?_eq_some_getLast hs]
  exact h _ (List.getLast_mem hs)

theorem decimal_ne_nil (n : Nat) : decimal n ≠ [] := by
  rw [decimal, Ne, List.map_eq_nil_iff]
  exact Nat.toDigits_ne_nil

theorem endsHex_decimal (n : Nat) : endsHex (decimal n) = true :=
  endsHex_of_forall (decimal_ne_nil n) fun _ hb => isHex_of_isDigit (isDigit_of_mem_decimal hb)

theorem endsHex_hashString (s : Str) : endsHex (hashString s) = true :=
  endsHex_of_forall (hex_ne_nil _) fun _ hb => isHex_of_mem_hex hb

/-- Names with an index end in a digit. -/
theorem endsHex_indexed (word : Str) (i : Nat) : endsHex (word ++ str "-" ++ decimal i) = true := by
  rw [endsHex_append (decimal_ne_nil i)]
  exact endsHex_decimal i

theorem endsHex_cons_hexPad (n : Nat) : endsHex (0x2d :: hexPad 8 n) = true := by
  have hpad : hexPad 8 n ≠ [] := by
    rw [hexPad, Ne, List.append_eq_nil_iff]
    exact fun h => hex_ne_nil n h.2
  rw [← List.singleton_append, endsHex_append hpad]
  exact endsHex_of_forall hpad fun b hb => isHex_of_mem_hexPad hb

/-- A name with a suffix ends like the suffix, or with a hash. -/
theorem endsHex_nftNameWithSuffix {base suffix : Str} (hbase : Clean base) (hsuffix : Clean suffix)
    (hne : suffix ≠ []) (hends : endsHex suffix = true) :
    endsHex (nftNameWithSuffix base (str "-") suffix) = true := by
  have hsep : Clean (str "-") := .ofAll (by decide)
  unfold nftNameWithSuffix
  simp only [hsep.mapRunes, hsuffix.mapRunes]
  rw [if_neg (by simp [str])]
  split
  · rw [truncateNftName_of_clean ((hbase.append hsep).append hsuffix) (by decide)]
    split
    · rw [endsHex_append hne]
      exact hends
    · rw [endsHex_append (List.cons_ne_nil _ _)]
      exact endsHex_cons_hexPad _
  · rw [endsHex_append hne]
    exact hends

theorem clean_indexed {word : Str} (hword : Clean word) (i : Nat) :
    Clean (word ++ str "-" ++ decimal i) :=
  (hword.append (.ofAll (by decide))).append (.decimal i)

theorem clean_portsChainSuffix : Clean portsChainSuffix := .ofAll (by decide)

theorem clean_peersChainSuffix : Clean peersChainSuffix := .ofAll (by decide)

/-- A name is kept or replaced by its hash. -/
theorem shortName_cases (name : Str) : (name.length ≤ 31 ∧ shortName name = name) ∨
    (31 < name.length ∧ shortName name = hashString name) := by
  unfold shortName
  split
  · exact .inr ⟨by assumption, rfl⟩
  · exact .inl ⟨by omega, rfl⟩

/-- The names of the base chains do not end in a hexadecimal digit. -/
theorem endsHex_of_mem_baseChainNames : ∀ n ∈ baseChainNames, endsHex n = false := by decide

/-- A short name of a policy chain has a dash in the part behind the entry chain's name. -/
theorem policyChainFullName_not_base (d : Direction) (p : MultiNetworkPolicy)
    (hlen : (policyChainFullName d.entry p).length ≤ 31) :
    policyChainFullName d.entry p ∉ baseChainNames := by
  intro hmem
  have hclean := clean_policyRuleNamespacedName p
  have hwhole := policyChainFullName_eq d p
  have hfits : (policyRuleNamespacedName p).length ≤ d.room := by
    by_contra hlong
    have hcut := truncateNftName_length_of_lt hclean d.lt_room (Nat.lt_of_not_le hlong)
    rw [hwhole, List.length_append, hcut] at hlen
    have hroom : 31 < d.room := by cases d <;> decide
    omega
  rw [truncateNftName_eq_self hclean d.lt_room hfits] at hwhole
  have hbase : ∀ n ∈ baseChainNames, n.take (d.entry ++ str "-").length = d.entry ++ str "-" →
      0x2d ∉ n.drop (d.entry ++ str "-").length := by
    cases d <;> decide
  refine hbase _ hmem ?_ ?_
  · rw [hwhole, List.take_left]
  · rw [hwhole, List.drop_left]
    exact List.mem_append_left _ (List.mem_append_right _ (by decide))

/-- **No chain of a policy is a base, entry or common chain.** -/
theorem chainNameOf_not_base (d : Direction) (p : MultiNetworkPolicy) (role : ChainRole) :
    chainNameOf d p role ∉ baseChainNames := by
  intro hmem
  have hends := endsHex_of_mem_baseChainNames _ hmem
  have hclean := clean_policyChainFullName d p
  unfold chainNameOf at hmem hends
  rcases shortName_cases (chainFullName d p role) with ⟨hlen, hshort⟩ | ⟨-, hshort⟩
  · rw [hshort] at hmem hends
    cases role with
    | policy => exact policyChainFullName_not_base d p hlen hmem
    | ports i =>
      have hports := endsHex_nftNameWithSuffix hclean (clean_indexed clean_portsChainSuffix i)
        (List.append_ne_nil_of_right_ne_nil _ (decimal_ne_nil i)) (endsHex_indexed _ i)
      exact Bool.false_ne_true (hends.symm.trans hports)
    | peers i =>
      have hpeers := endsHex_nftNameWithSuffix hclean (clean_indexed clean_peersChainSuffix i)
        (List.append_ne_nil_of_right_ne_nil _ (decimal_ne_nil i)) (endsHex_indexed _ i)
      exact Bool.false_ne_true (hends.symm.trans hpeers)
  · rw [hshort, endsHex_hashString] at hends
    cases hends

/-! ### Names with an index -/

/-- The largest index of a rule: an index is a Go `int`. -/
def maxRuleIndex : Nat := 2 ^ 63

/-- The room that the suffix of a ports or peers chain leaves. -/
def suffixRoom (i : Nat) : Nat := 248 - (decimal i).length

/-- Go's indices have at most nineteen digits. -/
theorem decimal_length_le {i : Nat} (hi : i < maxRuleIndex) : (decimal i).length ≤ 19 := by
  rw [decimal, List.length_map]
  exact Nat.toDigits_length 10 i 19 (by decide) (lt_of_lt_of_le hi (by norm_num [maxRuleIndex]))

theorem decimal_length_lt {i : Nat} (hi : i < maxRuleIndex) : (decimal i).length < 248 := by
  have hlen := decimal_length_le hi
  omega

/-- So much room is left beside an index. -/
theorem lt_suffixRoom {i : Nat} (hi : i < maxRuleIndex) : 228 < suffixRoom i := by
  have hlen := decimal_length_le hi
  unfold suffixRoom
  omega

/-- Separator and suffix leave room for a part of the base. -/
def SuffixFits (separator suffix : Str) : Prop :=
  (mapRunes sanitizeNftChar separator).length + (mapRunes sanitizeNftChar suffix).length <
    nftNameMaxLen

instance (separator suffix : Str) : Decidable (SuffixFits separator suffix) :=
  inferInstanceAs (Decidable (_ < _))

/-- A suffix that leaves room is kept behind what fits of the base. -/
theorem nftNameWithSuffix_of_fits {base separator suffix : Str}
    (hfits : SuffixFits separator suffix) :
    nftNameWithSuffix base separator suffix =
      truncateNftName base (nftNameMaxLen - ((mapRunes sanitizeNftChar separator).length +
        (mapRunes sanitizeNftChar suffix).length) : Nat) ++
        mapRunes sanitizeNftChar separator ++ mapRunes sanitizeNftChar suffix := by
  unfold SuffixFits at hfits
  unfold nftNameWithSuffix
  simp only []
  rw [if_neg (show ¬ _ ≥ nftNameMaxLen by omega), Nat.cast_sub (by omega)]
  split
  · rename_i hempty
    rw [List.length_eq_zero_iff.1 (by omega : (mapRunes sanitizeNftChar separator).length = 0),
      List.length_eq_zero_iff.1 (by omega : (mapRunes sanitizeNftChar suffix).length = 0),
      List.append_nil, List.append_nil]
    rfl
  · rfl

/-- The name of a ports or peers chain: what fits of the policy chain's name, the word and the
index. -/
theorem nftNameWithSuffix_indexed {base word : Str} {i : Nat} (hword : Clean word)
    (hlen : word.length = 5) (hdec : (decimal i).length < 248) :
    nftNameWithSuffix base (str "-") (word ++ str "-" ++ decimal i) =
      truncateNftName base (suffixRoom i) ++ 0x2d :: word ++ 0x2d :: decimal i := by
  have hsep : mapRunes sanitizeNftChar (str "-") = [0x2d] := by decide
  have hsuffix := (clean_indexed hword i).mapRunes
  have hlength : (word ++ str "-" ++ decimal i).length = 6 + (decimal i).length := by
    rw [List.length_append, List.length_append, hlen]
    rfl
  have hfits : SuffixFits (str "-") (word ++ str "-" ++ decimal i) := by
    rw [SuffixFits, hsep, hsuffix, hlength, nftNameMaxLen, List.length_singleton]
    omega
  have hroom : nftNameMaxLen - (1 + (6 + (decimal i).length)) = suffixRoom i := by
    unfold nftNameMaxLen suffixRoom
    omega
  rw [nftNameWithSuffix_of_fits hfits, hsep, hsuffix, hlength, List.length_singleton, hroom]
  simp only [List.append_assoc]
  rfl

/-- Word and index can be read off such a name. -/
theorem indexed_inj {a b word word' : Str} {i j : Nat} (hlen : word.length = word'.length)
    (h : a ++ 0x2d :: word ++ 0x2d :: decimal i = b ++ 0x2d :: word' ++ 0x2d :: decimal j) :
    i = j ∧ word = word' ∧ a = b := by
  obtain ⟨hfront, hij⟩ := append_sep_decimal_inj (by decide) h
  obtain ⟨hab, hword⟩ := List.append_inj' hfront (by rw [List.length_cons, List.length_cons, hlen])
  rw [List.cons.injEq] at hword
  exact ⟨hij, hword.2, hab⟩

/-- The bytes of a generated name. -/
def nftNameChars : Str :=
  str "ABCDEFGHIJKLMNOPQRSTUVWXYZabcdefghijklmnopqrstuvwxyz0123456789_.-"

/-- Clean characters are legal ones. -/
theorem mem_nftNameChars : ∀ b, isCleanChar b = true → b ∈ nftNameChars :=
  forall_uint8 (by decide +kernel)

/-- The suffix of a ports or peers chain. -/
def indexedSuffix (word : Str) (i : Nat) : Str := word ++ str "-" ++ decimal i

section Suffix

variable (base separator suffix : Str)

/-- Names with a suffix are clean. -/
theorem clean_nftNameWithSuffix : Clean (nftNameWithSuffix base separator suffix) := by
  have hsep := clean_mapRunes separator
  have hsuffix := clean_mapRunes suffix
  unfold nftNameWithSuffix
  simp only []
  split
  · exact clean_truncateNftName _ _
  split
  · exact clean_truncateNftName _ _
  · exact ((clean_truncateNftName _ _).append hsep).append hsuffix

/-- **Names with a suffix are short enough**, however long the suffix. -/
theorem length_nftNameWithSuffix_le :
    (nftNameWithSuffix base separator suffix).length ≤ nftNameMaxLen := by
  have hcut : ∀ (name : Str) (maxLen : Nat), (truncateNftName name maxLen).length ≤ maxLen := by
    intro name maxLen
    have hle := length_truncateNftName_le name maxLen
    omega
  unfold nftNameWithSuffix
  simp only []
  split
  · exact hcut _ _
  split
  · exact hcut _ _
  · rename_i hfits
    rw [List.length_append, List.length_append]
    have hle := length_truncateNftName_le base ((nftNameMaxLen : Int) -
      (((mapRunes sanitizeNftChar separator).length +
        (mapRunes sanitizeNftChar suffix).length : Nat) : Int))
    omega

end Suffix

/-- Word and index can be read off a name that keeps its suffix. -/
theorem nftNameWithSuffix_indexed_inj {base base' separator separator' word word' : Str}
    {i j : Nat} (hword : Clean word) (hword' : Clean word') (hlen : word.length = word'.length)
    (hfits : SuffixFits separator (indexedSuffix word i))
    (hfits' : SuffixFits separator' (indexedSuffix word' j))
    (h : nftNameWithSuffix base separator (indexedSuffix word i) =
      nftNameWithSuffix base' separator' (indexedSuffix word' j)) : word = word' ∧ i = j := by
  have hdash : ∀ (front word : Str) (i : Nat),
      front ++ indexedSuffix word i = (front ++ word) ++ 0x2d :: decimal i := by
    intro front word i
    rw [indexedSuffix, List.append_assoc, List.append_assoc]
    rfl
  have hkept : mapRunes sanitizeNftChar (indexedSuffix word i) = indexedSuffix word i :=
    (clean_indexed hword i).mapRunes
  have hkept' : mapRunes sanitizeNftChar (indexedSuffix word' j) = indexedSuffix word' j :=
    (clean_indexed hword' j).mapRunes
  rw [nftNameWithSuffix_of_fits hfits, nftNameWithSuffix_of_fits hfits', hkept, hkept', hdash,
    hdash] at h
  obtain ⟨hfront, hij⟩ := append_sep_decimal_inj (by decide) h
  exact ⟨(List.append_inj' hfront hlen).2, hij⟩

/-- **Generated names are legal and keep their suffix.** -/
theorem generated_names_legal :
    (∀ base separator suffix : Str,
      (nftNameWithSuffix base separator suffix).length ≤ 255 ∧
      (∀ b ∈ nftNameWithSuffix base separator suffix, b ∈ nftNameChars) ∧
      (SuffixFits separator suffix →
        mapRunes sanitizeNftChar separator ++ mapRunes sanitizeNftChar suffix <:+
          nftNameWithSuffix base separator suffix)) ∧
    (∀ base separator : Str, ∀ word ∈ [portsChainSuffix, peersChainSuffix],
      ∀ word' ∈ [portsChainSuffix, peersChainSuffix], ∀ i j : Nat, (word, i) ≠ (word', j) →
      SuffixFits separator (indexedSuffix word i) → SuffixFits separator (indexedSuffix word' j) →
      nftNameWithSuffix base separator (indexedSuffix word i) ≠
        nftNameWithSuffix base separator (indexedSuffix word' j)) ∧
    ∀ (name : Str) (maxLen : Int),
      ((truncateNftName name maxLen).length : Int) ≤ max maxLen 0 ∧
      ((mapRunes sanitizeNftChar name).length ≤ maxLen →
        truncateNftName name maxLen = mapRunes sanitizeNftChar name) := by
  -- the two words have the same length, so that the index begins at the same place
  have hwords : ∀ word ∈ [portsChainSuffix, peersChainSuffix], Clean word ∧ word.length = 5 := by
    intro word hword
    rcases List.mem_pair.1 hword with rfl | rfl
    · exact ⟨clean_portsChainSuffix, rfl⟩
    · exact ⟨clean_peersChainSuffix, rfl⟩
  refine ⟨fun base separator suffix => ⟨?_, ?_, ?_⟩, ?_, fun name maxLen => ⟨?_, ?_⟩⟩
  · exact length_nftNameWithSuffix_le base separator suffix
  · exact fun b hb => mem_nftNameChars b (clean_nftNameWithSuffix base separator suffix b hb)
  · intro hfits
    rw [nftNameWithSuffix_of_fits hfits, List.append_assoc]
    exact List.suffix_append _ _
  · intro base separator word hword word' hword' i j hne hfits hfits' heq
    obtain ⟨hclean, hlen⟩ := hwords word hword
    obtain ⟨hclean', hlen'⟩ := hwords word' hword'
    obtain ⟨rfl, rfl⟩ := nftNameWithSuffix_indexed_inj hclean hclean' (hlen.trans hlen'.symm)
      hfits hfits' heq
    exact hne rfl
  · exact length_truncateNftName_le name maxLen
  · exact truncateNftName_of_fits name maxLen

/-- Indices with a different number of digits. -/
theorem nine_and_ten_differ : SuffixFits (str "-") (indexedSuffix portsChainSuffix 9) ∧
    SuffixFits (str "-") (indexedSuffix portsChainSuffix 10) ∧
    nftNameWithSuffix (str "default-policy") (str "-") (indexedSuffix portsChainSuffix 9) ≠
      nftNameWithSuffix (str "default-policy") (str "-") (indexedSuffix portsChainSuffix 10) := by
  have h9 : SuffixFits (str "-") (indexedSuffix portsChainSuffix 9) := by decide +kernel
  have h10 : SuffixFits (str "-") (indexedSuffix portsChainSuffix 10) := by decide +kernel
  have hports : portsChainSuffix ∈ [portsChainSuffix, peersChainSuffix] := List.mem_cons_self ..
  exact ⟨h9, h10, generated_names_legal.2.1 _ _ _ hports _ hports 9 10 (by simp) h9 h10⟩

/-- Two indices of 249 digits, for which only a hash of the digits is left of their ends; and a
bound below zero, which no length meets. -/
theorem long_indices_collide :
    (10 ^ 248 + 449599 : Nat) ≠ 10 ^ 248 + 612382 ∧
    nftNameWithSuffix [] (str "-") (indexedSuffix portsChainSuffix (10 ^ 248 + 449599)) =
      nftNameWithSuffix [] (str "-") (indexedSuffix portsChainSuffix (10 ^ 248 + 612382)) ∧
    ¬ ((truncateNftName (str "policy") (-1)).length : Int) ≤ -1 := by
  decide +kernel

/-- The roles of a policy's chains, up to an index. -/
def rolesBelow (bound : Nat) : List ChainRole :=
  .policy :: (List.range bound).flatMap fun i => [.ports i, .peers i]

/-- The roles with an index below a bound. -/
theorem mem_rolesBelow {bound : Nat} {role : ChainRole} : role ∈ rolesBelow bound ↔
    match role with
    | .policy => True
    | .ports i => i < bound
    | .peers i => i < bound := by
  cases role <;> simp [rolesBelow]

section Indexed

variable {bound : Nat} (hbound : bound ≤ maxRuleIndex) (d : Direction) (p : MultiNetworkPolicy)
include hbound

theorem chainFullName_ports {i : Nat} (hi : i < bound) : chainFullName d p (.ports i) =
    truncateNftName (policyChainFullName d.entry p) (suffixRoom i) ++ 0x2d :: portsChainSuffix ++
      0x2d :: decimal i :=
  nftNameWithSuffix_indexed clean_portsChainSuffix rfl (decimal_length_lt (by omega))

theorem chainFullName_peers {i : Nat} (hi : i < bound) : chainFullName d p (.peers i) =
    truncateNftName (policyChainFullName d.entry p) (suffixRoom i) ++ 0x2d :: peersChainSuffix ++
      0x2d :: decimal i :=
  nftNameWithSuffix_indexed clean_peersChainSuffix rfl (decimal_length_lt (by omega))

/-- All names of a direction begin alike. -/
theorem take_chainFullName {role : ChainRole} (hrole : role ∈ rolesBelow bound) :
    (chainFullName d p role).take 12 = d.entry.take 12 := by
  have hpolicy : (policyChainFullName d.entry p).take 12 = d.entry.take 12 := by
    unfold policyChainFullName
    rw [List.append_assoc, List.take_append_of_le_length (by cases d <;> decide)]
  have hclean := clean_policyChainFullName d p
  -- the suffix is behind the bytes that are looked at
  have hindexed : ∀ {i : Nat} (rest : Str), i < bound →
      (truncateNftName (policyChainFullName d.entry p) (suffixRoom i) ++ rest).take 12 =
        d.entry.take 12 := by
    intro i rest hi
    have hroom := lt_suffixRoom (show i < maxRuleIndex by omega)
    have htake := @take_truncateNftName _ (suffixRoom i) hclean (by omega) 12 (by omega)
    have hlen : 12 ≤ (truncateNftName (policyChainFullName d.entry p) (suffixRoom i)).length := by
      have := congrArg List.length htake
      rw [hpolicy, List.length_take, List.length_take] at this
      have hentry : 12 ≤ d.entry.length := by cases d <;> decide
      omega
    rw [List.take_append_of_le_length hlen, htake, hpolicy]
  have hrole := mem_rolesBelow.1 hrole
  cases role with
  | policy => exact hpolicy
  | ports i =>
    rw [chainFullName_ports hbound d p hrole, List.append_assoc]
    exact hindexed _ hrole
  | peers i =>
    rw [chainFullName_peers hbound d p hrole, List.append_assoc]
    exact hindexed _ hrole

end Indexed

/-- Shortening keeps names apart whose hashes do not collide: a name that is kept does not look like
a hash. -/
theorem eq_of_shortName_eq {a b : Str} (ha : a.take 5 = str "multi") (hb : b.take 5 = str "multi")
    (hhash : 31 < a.length → 31 < b.length → hashString a = hashString b → a = b)
    (h : shortName a = shortName b) : a = b := by
  have hne : ∀ {x y : Str}, x.take 5 = str "multi" → x ≠ hashString y := by
    intro x y hx heq
    have hm : (0x6d : UInt8) ∈ x.take 5 := by
      rw [hx]
      decide
    have hhex := isHex_of_mem_hex (heq ▸ List.mem_of_mem_take hm : (0x6d : UInt8) ∈ hashString y)
    exact absurd hhex (by decide)
  rcases shortName_cases a with ⟨-, ha'⟩ | ⟨hla, ha'⟩ <;>
    rcases shortName_cases b with ⟨-, hb'⟩ | ⟨hlb, hb'⟩ <;> rw [ha', hb'] at h
  · exact h
  · exact absurd h (hne ha)
  · exact absurd h.symm (hne hb)
  · exact hhash hla hlb h

/-! ### When chain names are distinct -/

/-- The hashes of names that are cut or shortened do not collide. -/
structure HashesApart (ps : List MultiNetworkPolicy) (bound : Nat) : Prop where
  cut : ∀ d : Direction, ∀ p ∈ ps, ∀ p' ∈ ps, d.room < (policyRuleNamespacedName p).length →
    d.room < (policyRuleNamespacedName p').length →
    fnv32a (policyRuleNamespacedName p) = fnv32a (policyRuleNamespacedName p') →
    policyRuleNamespacedName p = policyRuleNamespacedName p'
  suffixed : ∀ d : Direction, ∀ p ∈ ps, ∀ p' ∈ ps, ∀ i < bound,
    suffixRoom i < (policyChainFullName d.entry p).length →
    suffixRoom i < (policyChainFullName d.entry p').length →
    fnv32a (policyChainFullName d.entry p) = fnv32a (policyChainFullName d.entry p') →
    policyChainFullName d.entry p = policyChainFullName d.entry p'
  short : ∀ d d' : Direction, ∀ p ∈ ps, ∀ p' ∈ ps, ∀ role ∈ rolesBelow bound,
    ∀ role' ∈ rolesBelow bound, 31 < (chainFullName d p role).length →
    31 < (chainFullName d' p' role').length →
    hashString (chainFullName d p role) = hashString (chainFullName d' p' role') →
    chainFullName d p role = chainFullName d' p' role'

/-- The chains of the policies have names of their own. -/
structure ChainsDistinct (ps : List MultiNetworkPolicy) (bound : Nat) : Prop where
  policies : ∀ d d' : Direction, ∀ p ∈ ps, ∀ p' ∈ ps, ∀ role ∈ rolesBelow bound,
    ∀ role' ∈ rolesBelow bound, (d, p.name, role) ≠ (d', p'.name, role') →
    chainNameOf d p role ≠ chainNameOf d' p' role'
  base : ∀ d : Direction, ∀ p ∈ ps, ∀ role ∈ rolesBelow bound, chainNameOf d p role ∉ baseChainNames

/-- No policy's name is the cut form of another one's, and none is the name of another one's ports
or peers chain. -/
structure NamesApart (ps : List MultiNetworkPolicy) (bound : Nat) : Prop where
  cut : ∀ d : Direction, ∀ p ∈ ps, ∀ p' ∈ ps, p.name ≠ p'.name →
    policyRuleNamespacedName p' ≠ truncateNftName (policyRuleNamespacedName p) d.room
  suffixed : ∀ d : Direction, ∀ p ∈ ps, ∀ p' ∈ ps, p.name ≠ p'.name → ∀ i < bound,
    policyChainFullName d.entry p' ≠ truncateNftName (policyChainFullName d.entry p) (suffixRoom i)
  ports : ∀ d : Direction, ∀ p ∈ ps, ∀ p' ∈ ps, ∀ i < bound,
    policyChainFullName d.entry p' ≠ Render.portsChainName (policyChainFullName d.entry p) i
  peers : ∀ d : Direction, ∀ p ∈ ps, ∀ p' ∈ ps, ∀ i < bound,
    policyChainFullName d.entry p' ≠ Render.peersChainName (policyChainFullName d.entry p) i

section Distinct

variable {ns : Str} {ps : List MultiNetworkPolicy} {bound : Nat}
  (hns : ∀ p ∈ ps, p.namespace = ns) (hbound : bound ≤ maxRuleIndex)

/-- In one namespace the full name tells the name. -/
theorem policyRuleNamespacedName_inj {p p' : MultiNetworkPolicy} (hns : p.namespace = p'.namespace)
    (h : policyRuleNamespacedName p = policyRuleNamespacedName p') : p.name = p'.name := by
  unfold policyRuleNamespacedName at h
  rw [hns] at h
  exact List.append_cancel_left h

/-- Policies with the same chain name have the same name, unless one is the cut form of the other or
their hashes collide. -/
theorem name_eq_of_policyChainFullName {d : Direction} {p p' : MultiNetworkPolicy}
    (hns : p.namespace = p'.namespace)
    (hcut : policyRuleNamespacedName p' ≠ truncateNftName (policyRuleNamespacedName p) d.room)
    (hcut' : policyRuleNamespacedName p ≠ truncateNftName (policyRuleNamespacedName p') d.room)
    (hhash : d.room < (policyRuleNamespacedName p).length →
      d.room < (policyRuleNamespacedName p').length →
      fnv32a (policyRuleNamespacedName p) = fnv32a (policyRuleNamespacedName p') →
      policyRuleNamespacedName p = policyRuleNamespacedName p')
    (h : policyChainFullName d.entry p = policyChainFullName d.entry p') : p.name = p'.name := by
  rw [policyChainFullName_eq, policyChainFullName_eq] at h
  have htrunc : truncateNftName (policyRuleNamespacedName p) d.room =
      truncateNftName (policyRuleNamespacedName p') d.room := List.append_cancel_left h
  rcases eq_of_truncateNftName_eq (clean_policyRuleNamespacedName p) d.lt_room
    (clean_policyRuleNamespacedName p') htrunc with heq | hcut'' | hcut'' | ⟨hl, hl', hfnv⟩
  · exact policyRuleNamespacedName_inj hns heq
  · exact absurd hcut'' hcut
  · exact absurd hcut'' hcut'
  · exact policyRuleNamespacedName_inj hns (hhash hl hl' hfnv)

/-- The same for chain names that were cut to make room for a suffix. -/
theorem policyChainFullName_eq_of_cut {d : Direction} {p p' : MultiNetworkPolicy} {i : Nat}
    (hi : i < maxRuleIndex)
    (hcut : policyChainFullName d.entry p' ≠
      truncateNftName (policyChainFullName d.entry p) (suffixRoom i))
    (hcut' : policyChainFullName d.entry p ≠
      truncateNftName (policyChainFullName d.entry p') (suffixRoom i))
    (hhash : suffixRoom i < (policyChainFullName d.entry p).length →
      suffixRoom i < (policyChainFullName d.entry p').length →
      fnv32a (policyChainFullName d.entry p) = fnv32a (policyChainFullName d.entry p') →
      policyChainFullName d.entry p = policyChainFullName d.entry p')
    (h : truncateNftName (policyChainFullName d.entry p) (suffixRoom i) =
      truncateNftName (policyChainFullName d.entry p') (suffixRoom i)) :
    policyChainFullName d.entry p = policyChainFullName d.entry p' := by
  have hroom := lt_suffixRoom hi
  rcases eq_of_truncateNftName_eq (clean_policyChainFullName d p) (by omega)
    (clean_policyChainFullName d p') h with heq | hcut'' | hcut'' | ⟨hl, hl', hfnv⟩
  · exact heq
  · exact absurd hcut'' hcut
  · exact absurd hcut'' hcut'
  · exact hhash hl hl' hfnv

include hns

/-- Two policy chains. -/
theorem NamesApart.name_eq_of_policy (hn : NamesApart ps bound) (hh : HashesApart ps bound)
    {d : Direction} {p p' : MultiNetworkPolicy} (hp : p ∈ ps) (hp' : p' ∈ ps)
    (h : policyChainFullName d.entry p = policyChainFullName d.entry p') : p.name = p'.name := by
  by_contra hne
  have hsame := (hns p hp).trans (hns p' hp').symm
  exact hne (name_eq_of_policyChainFullName hsame (hn.cut d p hp p' hp' hne)
    (hn.cut d p' hp' p hp (Ne.symm hne)) (hh.cut d p hp p' hp') h)

include hbound

/-- Two chains with the same suffix. -/
theorem NamesApart.name_eq_of_suffixed (hn : NamesApart ps bound) (hh : HashesApart ps bound)
    {d : Direction} {p p' : MultiNetworkPolicy} (hp : p ∈ ps) (hp' : p' ∈ ps) {i : Nat}
    (hi : i < bound) (h : truncateNftName (policyChainFullName d.entry p) (suffixRoom i) =
      truncateNftName (policyChainFullName d.entry p') (suffixRoom i)) : p.name = p'.name := by
  by_contra hne
  have heq := policyChainFullName_eq_of_cut (show i < maxRuleIndex by omega)
    (hn.suffixed d p hp p' hp' hne i hi) (hn.suffixed d p' hp' p hp (Ne.symm hne) i hi)
    (hh.suffixed d p hp p' hp' i hi) h
  exact hne (hn.name_eq_of_policy hns hh hp hp' heq)

/-- The full names of a direction determine policy and role. -/
theorem NamesApart.eq_of_chainFullName (hn : NamesApart ps bound) (hh : HashesApart ps bound)
    {d : Direction} {p p' : MultiNetworkPolicy} (hp : p ∈ ps) (hp' : p' ∈ ps)
    {role role' : ChainRole} (hr : role ∈ rolesBelow bound) (hr' : role' ∈ rolesBelow bound)
    (h : chainFullName d p role = chainFullName d p' role') : p.name = p'.name ∧ role = role' := by
  have hi := mem_rolesBelow.1 hr
  have hi' := mem_rolesBelow.1 hr'
  -- equal roles leave the truncated names of the policies, unequal ones the suffixes
  cases role with
  | policy =>
    cases role' with
    | policy => exact ⟨hn.name_eq_of_policy hns hh hp hp' h, rfl⟩
    | ports j => exact absurd h (hn.ports d p' hp' p hp j hi')
    | peers j => exact absurd h (hn.peers d p' hp' p hp j hi')
  | ports i =>
    cases role' with
    | policy => exact absurd h.symm (hn.ports d p hp p' hp' i hi)
    | ports j =>
      rw [chainFullName_ports hbound d p hi, chainFullName_ports hbound d p' hi'] at h
      obtain ⟨rfl, -, htrunc⟩ := indexed_inj rfl h
      exact ⟨hn.name_eq_of_suffixed hns hbound hh hp hp' hi htrunc, rfl⟩
    | peers j =>
      rw [chainFullName_ports hbound d p hi, chainFullName_peers hbound d p' hi'] at h
      exact absurd (indexed_inj (by rfl) h).2.1 (by decide)
  | peers i =>
    cases role' with
    | policy => exact absurd h.symm (hn.peers d p hp p' hp' i hi)
    | ports j =>
      rw [chainFullName_peers hbound d p hi, chainFullName_ports hbound d p' hi'] at h
      exact absurd (indexed_inj (by rfl) h).2.1 (by decide)
    | peers j =>
      rw [chainFullName_peers hbound d p hi, chainFullName_peers hbound d p' hi'] at h
      obtain ⟨rfl, -, htrunc⟩ := indexed_inj rfl h
      exact ⟨hn.name_eq_of_suffixed hns hbound hh hp hp' hi htrunc, rfl⟩

/-- **When chains of policies are distinct.**  The policies are those of a namespace, the indices
any below a bound. -/
theorem chainNames_distinct_iff (hh : HashesApart ps bound) :
    ChainsDistinct ps bound ↔ NamesApart ps bound := by
  constructor
  · intro hd
    have hpolicy : ChainRole.policy ∈ rolesBelow bound := mem_rolesBelow.2 trivial
    -- each way in which names meet makes two chains meet
    refine ⟨?_, ?_, ?_, ?_⟩
    · intro d p hp p' hp' hne hcut
      refine hd.policies d d p hp p' hp' .policy hpolicy .policy hpolicy (by simp [hne]) ?_
      have hfull : policyChainFullName d.entry p = policyChainFullName d.entry p' := by
        rw [policyChainFullName_eq, policyChainFullName_eq, hcut, truncateNftName_truncateNftName]
      exact congrArg shortName hfull
    · intro d p hp p' hp' hne i hi hcut
      have hports : ChainRole.ports i ∈ rolesBelow bound := mem_rolesBelow.2 hi
      refine hd.policies d d p hp p' hp' (.ports i) hports (.ports i) hports (by simp [hne]) ?_
      unfold chainNameOf
      rw [chainFullName_ports hbound d p hi, chainFullName_ports hbound d p' hi, hcut,
        truncateNftName_truncateNftName]
    · intro d p hp p' hp' i hi heq
      exact hd.policies d d p' hp' p hp .policy hpolicy (.ports i) (mem_rolesBelow.2 hi) (by simp)
        (congrArg shortName heq)
    · intro d p hp p' hp' i hi heq
      exact hd.policies d d p' hp' p hp .policy hpolicy (.peers i) (mem_rolesBelow.2 hi) (by simp)
        (congrArg shortName heq)
  · intro hn
    refine ⟨?_, fun d p _ role _ => chainNameOf_not_base d p role⟩
    intro d d' p hp p' hp' role hr role' hr' hne heq
    have htake := take_chainFullName hbound d p hr
    have htake' := take_chainFullName hbound d' p' hr'
    have hfive : ∀ d : Direction, (d.entry.take 12).take 5 = str "multi" := by decide
    -- a hash has no `multi` in front, so a shortened name meets another hash only
    have hstart : ∀ {x : Str} {d : Direction}, x.take 12 = d.entry.take 12 →
        x.take 5 = str "multi" := by
      intro x d hx
      rw [← hfive d, ← hx, List.take_take]
      rfl
    have hfull := eq_of_shortName_eq (hstart htake) (hstart htake')
      (hh.short d d' p hp p' hp' role hr role' hr') heq
    obtain rfl : d = d' := by
      have hentries : ∀ d d' : Direction, d.entry.take 12 = d'.entry.take 12 → d = d' := by decide
      exact hentries d d' (by rw [← htake, ← htake', hfull])
    obtain ⟨hname, rfl⟩ := hn.eq_of_chainFullName hns hbound hh hp hp' hr hr' hfull
    exact hne (by rw [hname])

end Distinct

/-! ### Names of some policies -/

theorem isDNS1123Label_ns : isDNS1123Label (str "ns") = true := by decide

theorem isDNS1123Subdomain_a : isDNS1123Subdomain (str "a") = true := by decide

theorem isDNS1123Subdomain_aPorts : isDNS1123Subdomain (str "a-ports-0") = true := by decide

theorem isDNS1123Subdomain_web : isDNS1123Subdomain (str "web") = true := by decide

theorem isDNS1123Subdomain_policy : isDNS1123Subdomain (str "policy") = true := by decide

/-- A policy of the namespace `default` for ingress on some networks. -/
def ingressPolicy (name : Str) (hname : isDNS1123Subdomain name = true) (networks : Str)
    (ingress : List PolicyRule) : MultiNetworkPolicy where
  «namespace» := str "default"
  name := name
  annotations := [.mk policyNetworkAnnotation networks]
  podSelector := ⟨[], []⟩
  ingress := some ingress
  egress := none
  policyTypes := []
  namespace_valid := by decide
  name_valid := hname

/-- Policies with unrelated names. -/
def unrelatedPolicies : List MultiNetworkPolicy :=
  [ingressPolicy (str "web") isDNS1123Subdomain_web [] [],
    ingressPolicy (str "db") (by decide) [] []]

set_option maxRecDepth 10000 in
/-- Three policies of one namespace with ordinary names. -/
theorem unrelated_chains_distinct : ChainsDistinct unrelatedPolicies 1 := by
  have hns : ∀ p ∈ unrelatedPolicies, p.namespace = str "default" := by decide
  have hhashes : HashesApart unrelatedPolicies 1 :=
    ⟨by decide +kernel, by decide +kernel, by decide +kernel⟩
  exact (chainNames_distinct_iff hns (by decide) hhashes).2
    ⟨by decide +kernel, by decide +kernel, by decide +kernel, by decide +kernel⟩

/-- A policy and one that is named like its first ports chain. -/
def nestedPolicies : List MultiNetworkPolicy :=
  [ingressPolicy (str "a") isDNS1123Subdomain_a [] [],
    ingressPolicy (str "a-ports-0") isDNS1123Subdomain_aPorts [] []]

set_option maxRecDepth 10000 in
/-- Their chains collide, without any collision of hashes. -/
theorem nested_chains_collide : (∀ p ∈ nestedPolicies, p.namespace = str "default") ∧
    (nestedPolicies.map MultiNetworkPolicy.name).Nodup ∧ HashesApart nestedPolicies 1 ∧
    ¬ ChainsDistinct nestedPolicies 1 := by
  refine ⟨by decide, by decide, ⟨by decide +kernel, by decide +kernel, by decide +kernel⟩, ?_⟩
  intro h
  have hne := h.policies .ingress .ingress _ (List.mem_cons_self ..) _
    (List.mem_cons_of_mem _ (List.mem_cons_self ..)) (.ports 0) (by decide) .policy (by decide)
    (by decide)
  exact hne (by decide +kernel)

end MultiNetPolicy
