import MultiNetPolicy.Equiv.Sets
import MultiNetPolicy.Lib.PrefixRange
import MultiNetPolicy.Server.Common

/-!
# Interval sets of prefixes

The elements of an interval set are start and end markers in network order; a lookup asks whether
the last marker up to the key is a start (`setContains_iff_marked`).  A list of prefixes is written
without sorting or merging, so it matches the union of the prefixes exactly when no prefix ends
inside another one, unless a further prefix starts there (`prefixes_match_union_iff`).
-/

namespace MultiNetPolicy

open ByteString Intervals

/-! ### Lookups -/

/-- A lookup in an interval set whose elements are the markers `starts` and `ends`. -/
theorem setContains_iff_marked {n : Nat} {els : List SetElement} {starts ends : List Nat}
    (hels : ∀ y, y ∈ contentsOf els ↔ (∃ s ∈ starts, y = (NetIP.beBytes n s, false)) ∨
      ∃ e ∈ ends, y = (NetIP.beBytes n e, true))
    (hstarts : ∀ s ∈ starts, s < 256 ^ n) (hends : ∀ e ∈ ends, e < 256 ^ n) {x : Nat}
    (hx : x < 256 ^ n) :
    setContains true els (NetIP.beBytes n x) = true ↔ Marked starts ends x := by
  -- elements are markers, and keys of one length compare as their numbers do
  have hstart : ∀ key, (∃ d ∈ els, d.key = key ∧ d.intervalEnd = false) ↔
      ∃ s ∈ starts, key = NetIP.beBytes n s := by
    intro key
    rw [← mem_contentsOf (x := (key, false)), hels]
    simp
  have hend : ∀ key, (∃ d ∈ els, d.key = key ∧ d.intervalEnd = true) ↔
      ∃ e ∈ ends, key = NetIP.beBytes n e := by
    intro key
    rw [← mem_contentsOf (x := (key, true)), hels]
    simp
  have hbehind : ∀ e ∈ ends, (le (NetIP.beBytes n e) (NetIP.beBytes n x) = false ↔ x < e) := by
    intro e he
    rw [← Bool.not_eq_true, NetIP.le_beBytes (hends e he) hx, not_le]
  rw [marked_iff]
  simp only [setContains, if_true, List.any_eq_true, List.all_eq_true, Bool.and_eq_true,
    Bool.or_eq_true, Bool.not_eq_true']
  constructor
  · rintro ⟨d, hd, ⟨hflag, hle⟩, hall⟩
    obtain ⟨s, hs, hkey⟩ := (hstart d.key).1 ⟨d, hd, rfl, hflag⟩
    rw [hkey, NetIP.le_beBytes (hstarts s hs) hx] at hle
    refine ⟨s, hs, hle, fun e he => ?_⟩
    obtain ⟨d', hd', hkey', hflag'⟩ := (hend _).2 ⟨e, he, rfl⟩
    have hsep := hall d' hd'
    rw [hflag', hkey', hkey, NetIP.le_beBytes (hends e he) (hstarts s hs), hbehind e he] at hsep
    simpa using hsep
  · rintro ⟨s, hs, hsx, hsep⟩
    obtain ⟨d, hd, hkey, hflag⟩ := (hstart _).2 ⟨s, hs, rfl⟩
    refine ⟨d, hd, ⟨hflag, ?_⟩, fun d' hd' => ?_⟩
    · rw [hkey, NetIP.le_beBytes (hstarts s hs) hx]
      exact hsx
    · cases hflag' : d'.intervalEnd with
      | false => exact .inl (.inl rfl)
      | true =>
        obtain ⟨e, he, hkey'⟩ := (hend d'.key).1 ⟨d', hd', rfl, hflag'⟩
        rw [hkey', hkey, NetIP.le_beBytes (hends e he) (hstarts s hs), hbehind e he]
        simpa using hsep e he

/-! ### The elements of a list of prefixes -/

/-- The prefixes of a list of texts. -/
def prefixesOf (texts : List Str) : List NetIP.IPPrefix := texts.filterMap NetIP.parsePrefix

/-- The number of bytes of a key, for IPv4 or IPv6. -/
def keySize (is4 : Bool) : Nat := if is4 then 4 else 16

theorem size_eq_keySize (p : NetIP.IPPrefix) : p.size = keySize p.is4 := by
  cases p <;> rfl

theorem replicate_zero (is4 : Bool) :
    List.replicate (keySize is4) 0 = NetIP.beBytes (keySize is4) 0 := by
  cases is4 <;> decide

/-- The end marker of a range; the ranges up to the last address end at zero. -/
def endOf (r : HalfOpen Nat) : Nat := r.after.getD 0

/-- The two markers of a prefix. -/
theorem convertPrefixToSet_eq (p : NetIP.IPPrefix) : convertPrefixToSet p =
    [⟨NetIP.beBytes (keySize p.is4) p.range.first, false, []⟩,
      ⟨NetIP.beBytes (keySize p.is4) (endOf p.range), true, []⟩] := by
  have hend : p.afterLast.getD (List.replicate (if p.is4 then 4 else 16) 0) =
      NetIP.beBytes (keySize p.is4) (endOf p.range) := by
    have hzero := replicate_zero p.is4
    rw [keySize] at hzero
    rw [p.afterLast_eq, hzero, size_eq_keySize, endOf, keySize]
    cases p.range.after <;> rfl
  change ([⟨p.first, false, []⟩,
    ⟨p.afterLast.getD (List.replicate (if p.is4 then 4 else 16) 0), true, []⟩] :
      List SetElement) = _
  rw [hend, p.first_eq, size_eq_keySize]

/-- The markers of a prefix. -/
theorem mem_contentsOf_convertPrefixToSet {p : NetIP.IPPrefix} {y : Str × Bool} :
    y ∈ contentsOf (convertPrefixToSet p) ↔
      y = (NetIP.beBytes (keySize p.is4) p.range.first, false) ∨
        y = (NetIP.beBytes (keySize p.is4) (endOf p.range), true) := by
  rw [convertPrefixToSet_eq, contentsOf, List.map_cons, List.map_singleton, List.mem_cons,
    List.mem_singleton]

/-- Both markers of a prefix are keys of its family. -/
theorem markers_lt (p : NetIP.IPPrefix) :
    p.range.first < 256 ^ keySize p.is4 ∧ endOf p.range < 256 ^ keySize p.is4 := by
  have hlt := p.range_lt
  rw [size_eq_keySize] at hlt
  refine ⟨hlt.1, ?_⟩
  rw [endOf]
  cases hafter : p.range.after with
  | none => exact Nat.pow_pos (by decide)
  | some e => exact hlt.2 e hafter

/-- What one prefix adds: its markers, after an end at zero when it is the first of the list. -/
def prefixElements (index : Nat) (p : NetIP.IPPrefix) : List SetElement :=
  (if index = 0 then [⟨List.replicate (if p.is4 then 4 else 16) 0, true, []⟩] else []) ++
    convertPrefixToSet p

/-- One round of the loop over the prefixes. -/
theorem prefixesFrom_cons_eq_ok {index : Nat} {text : Str} {texts : List Str}
    {els : List SetElement × List SetElement} (h : prefixesFrom index (text :: texts) = .ok els) :
    ∃ p rest, NetIP.parsePrefix text = some p ∧ prefixesFrom (index + 1) texts = .ok rest ∧
      ∀ is4 : Bool, (if is4 then els.1 else els.2) =
        (if p.is4 = is4 then prefixElements index p else []) ++
          (if is4 then rest.1 else rest.2) := by
  rw [prefixesFrom] at h
  cases hp : NetIP.parsePrefix text with
  | none =>
    rw [hp] at h
    cases h
  | some p =>
    rw [hp] at h
    cases hrest : prefixesFrom (index + 1) texts with
    | error e =>
      rw [hrest] at h
      cases h
    | ok rest =>
      rw [hrest] at h
      obtain rfl := Except.ok.inj h
      refine ⟨p, rest, rfl, rfl, fun is4 => ?_⟩
      change (if is4 then (if p.is4 then (prefixElements index p ++ rest.1, rest.2)
        else (rest.1, prefixElements index p ++ rest.2)).1
        else (if p.is4 then (prefixElements index p ++ rest.1, rest.2)
        else (rest.1, prefixElements index p ++ rest.2)).2) = _
      cases p.is4 <;> cases is4 <;> rfl

theorem mem_contentsOf_append {a b : List SetElement} {y : Str × Bool} :
    y ∈ contentsOf (a ++ b) ↔ y ∈ contentsOf a ∨ y ∈ contentsOf b := by
  rw [contentsOf, List.map_append, List.mem_append]
  rfl

/-- The first prefix comes with an end marker at zero. -/
theorem mem_contentsOf_prefixElements {index : Nat} {p : NetIP.IPPrefix} {y : Str × Bool} :
    y ∈ contentsOf (prefixElements index p) ↔
      (index = 0 ∧ y = (NetIP.beBytes (keySize p.is4) 0, true)) ∨
        y ∈ contentsOf (convertPrefixToSet p) := by
  rw [prefixElements, mem_contentsOf_append, ← replicate_zero, keySize]
  by_cases hi : index = 0
  · simp [hi, contentsOf]
  · simp [hi, contentsOf]

/-- What the loop over the prefixes collects for a family. -/
theorem mem_prefixesFrom {is4 : Bool} {y : Str × Bool} : ∀ {texts : List Str} {index : Nat}
    {els : List SetElement × List SetElement}, prefixesFrom index texts = .ok els →
    (y ∈ contentsOf (if is4 then els.1 else els.2) ↔
      (∃ p ∈ prefixesOf texts, p.is4 = is4 ∧ y ∈ contentsOf (convertPrefixToSet p)) ∨
        (index = 0 ∧ (∃ p ∈ (prefixesOf texts).head?, p.is4 = is4) ∧
          y = (NetIP.beBytes (keySize is4) 0, true)))
  | [], _, els, h => by
    obtain rfl := Except.ok.inj h
    cases is4 <;> simp [prefixesOf, contentsOf]
  | text :: texts, index, els, h => by
    obtain ⟨p, rest, hp, hrest, hels⟩ := prefixesFrom_cons_eq_ok h
    have ih := @mem_prefixesFrom is4 y texts (index + 1) rest hrest
    have hcons : prefixesOf (text :: texts) = p :: prefixesOf texts := by
      rw [prefixesOf, List.filterMap_cons, hp]
      rfl
    rw [hels, mem_contentsOf_append, ih, hcons, List.head?_cons]
    simp only [Nat.add_eq_zero_iff, one_ne_zero, and_false, false_and, or_false, Option.mem_def,
      Option.some.injEq, exists_eq_left', List.mem_cons, exists_eq_or_imp]
    by_cases hfam : p.is4 = is4
    · rw [if_pos hfam, mem_contentsOf_prefixElements, hfam]
      simp only [true_and]
      exact or_assoc.trans or_comm
    · rw [if_neg hfam]
      simp [hfam, contentsOf]

/-! ### The union of prefixes -/

/-- The ranges of the prefixes of a family. -/
def rangesOf (texts : List Str) (is4 : Bool) : List (HalfOpen Nat) :=
  ((prefixesOf texts).filter fun p => p.is4 == is4).map NetIP.IPPrefix.range

/-- The intervals of some prefixes. -/
theorem mem_rangesOf {texts : List Str} {is4 : Bool} {r : HalfOpen Nat} :
    r ∈ rangesOf texts is4 ↔ ∃ p ∈ prefixesOf texts, p.is4 = is4 ∧ p.range = r := by
  simp [rangesOf, and_assoc]

/-- Behind a prefix of the list there is no other one of the list, unless one starts there. -/
def UnbrokenPrefixes (texts : List Str) : Prop := ∀ is4, Unbroken (rangesOf texts is4)

instance (texts : List Str) : Decidable (UnbrokenPrefixes texts) :=
  inferInstanceAs (Decidable (∀ is4, Unbroken (rangesOf texts is4)))

/-- The number of an address. -/
def addrNumber : NetIP.Addr → Nat
  | .v4 x => x.toNat
  | .v6 x _ => x.toNat

theorem asSlice_eq (a : NetIP.Addr) : a.asSlice = NetIP.beBytes (keySize a.is4) (addrNumber a) := by
  cases a <;> rfl

theorem addrNumber_lt (a : NetIP.Addr) : addrNumber a < 256 ^ keySize a.is4 := by
  cases a with
  | v4 x => exact x.isLt
  | v6 x zone => exact x.isLt

/-- Every number of a family is an address. -/
theorem exists_addr (is4 : Bool) {x : Nat} (hx : x < 256 ^ keySize is4) :
    ∃ a : NetIP.Addr, a.zone = [] ∧ a.is4 = is4 ∧ addrNumber a = x := by
  have hbits : ∀ w, x < 2 ^ w → (BitVec.ofNat w x).toNat = x := by
    intro w hw
    rw [BitVec.toNat_ofNat, Nat.mod_eq_of_lt hw]
  cases is4 with
  | true => exact ⟨.v4 (BitVec.ofNat 32 x), rfl, rfl, hbits 32 hx⟩
  | false => exact ⟨.v6 (BitVec.ofNat 128 x) [], rfl, rfl, hbits 128 hx⟩

/-- An address is in a prefix when its number is in the interval. -/
theorem contains_iff_range {p : NetIP.IPPrefix} {a : NetIP.Addr} (ha : a.zone = []) :
    p.contains a = true ↔ p.is4 = a.is4 ∧ p.range.Contains (addrNumber a) := by
  cases p with
  | v4 x len hlen =>
    cases a with
    | v4 y =>
      have hrange := NetIP.contains_rangeOf x len y
      rw [NetIP.IPPrefix.range, addrNumber, hrange]
      simp [NetIP.IPPrefix.contains, NetIP.IPPrefix.is4, NetIP.Addr.is4]
    | v6 y zone => simp [NetIP.IPPrefix.contains, NetIP.IPPrefix.is4, NetIP.Addr.is4]
  | v6 x len hlen =>
    cases a with
    | v4 y => simp [NetIP.IPPrefix.contains, NetIP.IPPrefix.is4, NetIP.Addr.is4]
    | v6 y zone =>
      obtain rfl : zone = [] := ha
      have hrange := NetIP.contains_rangeOf x len y
      rw [NetIP.IPPrefix.range, addrNumber, hrange]
      simp [NetIP.IPPrefix.contains, NetIP.IPPrefix.is4, NetIP.Addr.is4]

/-- A range starts at or before every one of its numbers and ends behind them, at zero for the
ranges up to the last address. -/
theorem contains_iff_markers {r : HalfOpen Nat} {x : Nat} :
    r.Contains x ↔ r.first ≤ x ∧ (endOf r = 0 ∨ x < endOf r) := by
  rw [HalfOpen.Contains, endOf]
  cases hafter : r.after with
  | none => simp
  | some e =>
    have hpos : r.first < e := r.first_lt e hafter
    have hne : e ≠ 0 := by omega
    simp [hne]

/-- **The markers of a prefix denote its addresses**: a start that is not above the last address,
and an end behind it, where the address zero stands for the top of the address space. -/
theorem prefix_denotes_its_addresses (p : NetIP.IPPrefix) : ∃ start stop : Str,
    convertPrefixToSet p = [⟨start, false, []⟩, ⟨stop, true, []⟩] ∧
    start.length = keySize p.is4 ∧ stop.length = keySize p.is4 ∧ le start p.last = true ∧
    ∀ a : NetIP.Addr, a.is4 = p.is4 →
      (p.contains a.withoutZone = true ↔ le start a.asSlice = true ∧
        (stop = List.replicate (keySize p.is4) 0 ∨ le stop a.asSlice = false)) := by
  obtain ⟨hfirst, hend⟩ := markers_lt p
  refine ⟨_, _, convertPrefixToSet_eq p, NetIP.beBytes_length .., NetIP.beBytes_length .., ?_, ?_⟩
  · have hle := p.first_le_last
    rwa [p.first_eq, size_eq_keySize] at hle
  · intro a ha
    -- an address and its zone: neither the prefix nor the key looks at the latter
    have hzone : a.withoutZone.zone = [] ∧ a.withoutZone.is4 = a.is4 ∧
        addrNumber a.withoutZone = addrNumber a := by
      cases a <;> exact ⟨rfl, rfl, rfl⟩
    have hlt := addrNumber_lt a
    rw [ha] at hlt
    have hzero : NetIP.beBytes (keySize p.is4) (endOf p.range) =
        List.replicate (keySize p.is4) 0 ↔ endOf p.range = 0 := by
      rw [replicate_zero]
      refine ⟨NetIP.beBytes_inj hend (Nat.pow_pos (by decide)), fun h => by rw [h]⟩
    rw [contains_iff_range hzone.1, hzone.2.1, hzone.2.2, contains_iff_markers, asSlice_eq, ha,
      NetIP.le_beBytes hfirst hlt, hzero, ← Bool.not_eq_true, NetIP.le_beBytes hend hlt, not_le]
    simp

/-- The prefix `10.1.0.0/16`, written with host bits, from `10.1.0.0` up to before `10.2.0.0`. -/
theorem unmasked_prefix_denotes : ∃ start stop : Str,
    convertPrefixToSet (.v4 0x0a010203 16 (by decide)) =
      [⟨start, false, []⟩, ⟨stop, true, []⟩] ∧
    (NetIP.IPPrefix.v4 0x0a010203 16 (by decide)).contains
      (NetIP.Addr.v4 0x0a01ffff).withoutZone = true ∧
    le start (NetIP.Addr.v4 0x0a01ffff).asSlice = true ∧
    (stop = List.replicate 4 0 ∨ le stop (NetIP.Addr.v4 0x0a01ffff).asSlice = false) := by
  obtain ⟨start, stop, hset, -, -, -, hmem⟩ :=
    prefix_denotes_its_addresses (.v4 0x0a010203 16 (by decide))
  have hin : (NetIP.IPPrefix.v4 0x0a010203 16 (by decide)).contains
      (NetIP.Addr.v4 0x0a01ffff).withoutZone = true := by decide +kernel
  have hbounds := (hmem (.v4 0x0a01ffff) rfl).1 hin
  exact ⟨start, stop, hset, hin, hbounds.1, hbounds.2⟩

/-- An address is in one of the prefixes. -/
theorem covered_rangesOf {texts : List Str} {a : NetIP.Addr} (ha : a.zone = []) :
    Covered (rangesOf texts a.is4) (addrNumber a) ↔
      ∃ text ∈ texts, ∃ p, NetIP.parsePrefix text = some p ∧ p.contains a = true := by
  unfold Covered
  simp only [mem_rangesOf, contains_iff_range ha, prefixesOf, List.mem_filterMap]
  constructor
  · rintro ⟨_, ⟨p, ⟨text, htext, hp⟩, hfam, rfl⟩, hx⟩
    exact ⟨text, htext, p, hp, hfam, hx⟩
  · rintro ⟨text, htext, p, hp, hfam, hx⟩
    exact ⟨_, ⟨p, ⟨text, htext, hp⟩, hfam, rfl⟩, hx⟩

/-- The markers of a list of ranges. -/
theorem markersOf_ranges {l : List (HalfOpen Nat)} {extra : List Nat}
    (hextra : ∀ e ∈ extra, e = 0) :
    MarkersOf l (l.map HalfOpen.first) (l.map endOf ++ extra) where
  mem_starts s := List.mem_map
  mem_ends r hr e he := by
    refine List.mem_append_left _ (List.mem_map.2 ⟨r, hr, ?_⟩)
    rw [endOf, Option.mem_def.1 he]
    rfl
  of_mem_ends e he := by
    rcases List.mem_append.1 he with he | he
    · obtain ⟨r, hr, rfl⟩ := List.mem_map.1 he
      cases hafter : r.after with
      | none =>
        refine .inr fun x => ?_
        rw [endOf, hafter]
        exact Nat.zero_le x
      | some a =>
        refine .inl ⟨r, hr, ?_⟩
        rw [endOf, hafter]
        rfl
    · rw [hextra e he]
      exact .inr Nat.zero_le

/-- The elements of a family are the markers of its ranges, with an end at zero when the list starts
with that family. -/
theorem setContains_prefixes {texts : List Str} {els : List SetElement × List SetElement}
    (h : getPrefixesAsSetInterval texts = .ok els) (is4 : Bool) : ∃ extra : List Nat,
    (∀ e ∈ extra, e = 0) ∧ ∀ x < 256 ^ keySize is4,
      (setContains true (if is4 then els.1 else els.2) (NetIP.beBytes (keySize is4) x) = true ↔
        Marked ((rangesOf texts is4).map HalfOpen.first)
          ((rangesOf texts is4).map endOf ++ extra) x) := by
  have hbound : ∀ r ∈ rangesOf texts is4, r.first < 256 ^ keySize is4 ∧
      endOf r < 256 ^ keySize is4 := by
    intro r hr
    obtain ⟨p, -, rfl, rfl⟩ := mem_rangesOf.1 hr
    exact markers_lt p
  -- the leading end marker 0 goes to the family of the first prefix
  refine ⟨if ∃ p ∈ (prefixesOf texts).head?, p.is4 = is4 then [0] else [], fun e he => ?_,
    fun x hx => ?_⟩
  · split at he
    · exact List.mem_singleton.1 he
    · cases he
  · refine setContains_iff_marked (fun y => ?_) ?_ ?_ hx
    · rw [mem_prefixesFrom h]
      simp only [mem_contentsOf_convertPrefixToSet, List.mem_map, List.mem_append, mem_rangesOf]
      constructor
      · rintro (⟨p, hp, rfl, hy | hy⟩ | ⟨-, hhead, hy⟩)
        · exact .inl ⟨_, ⟨_, ⟨p, hp, rfl, rfl⟩, rfl⟩, hy⟩
        · exact .inr ⟨_, .inl ⟨_, ⟨p, hp, rfl, rfl⟩, rfl⟩, hy⟩
        · rw [if_pos hhead]
          exact .inr ⟨0, .inr (List.mem_singleton.2 rfl), hy⟩
      · rintro (⟨_, ⟨_, ⟨p, hp, rfl, rfl⟩, rfl⟩, hy⟩ | ⟨_, ⟨_, ⟨p, hp, rfl, rfl⟩, rfl⟩ | he, hy⟩)
        · exact .inl ⟨p, hp, rfl, .inl hy⟩
        · exact .inl ⟨p, hp, rfl, .inr hy⟩
        · split at he
          · rename_i hhead
            rw [List.mem_singleton.1 he] at hy
            exact .inr ⟨trivial, hhead, hy⟩
          · cases he
    · intro s hs
      obtain ⟨r, hr, rfl⟩ := List.mem_map.1 hs
      exact (hbound r hr).1
    · intro e he
      rcases List.mem_append.1 he with he | he
      · obtain ⟨r, hr, rfl⟩ := List.mem_map.1 he
        exact (hbound r hr).2
      · split at he
        · rw [List.mem_singleton.1 he]
          exact Nat.pow_pos (by decide)
        · cases he

/-- **A list of prefixes matches the union of its prefixes exactly when it is unbroken.** -/
theorem prefixes_match_union_iff {texts : List Str} {v4 v6 : List SetElement}
    (h : getPrefixesAsSetInterval texts = .ok (v4, v6)) :
    (∀ a : NetIP.Addr, a.zone = [] →
      (setContains true (if a.is4 then v4 else v6) a.asSlice = true ↔
        ∃ text ∈ texts, ∃ p, NetIP.parsePrefix text = some p ∧ p.contains a = true)) ↔
      UnbrokenPrefixes texts := by
  -- each family has its own set and its own numbers
  have hfamily : ∀ is4, Unbroken (rangesOf texts is4) ↔ ∀ a : NetIP.Addr, a.zone = [] →
      a.is4 = is4 → (setContains true (if is4 then v4 else v6) a.asSlice = true ↔
        ∃ text ∈ texts, ∃ p, NetIP.parsePrefix text = some p ∧ p.contains a = true) := by
    intro is4
    obtain ⟨extra, hextra, hlookup⟩ := setContains_prefixes h is4
    have hin : ∀ r ∈ rangesOf texts is4, ∀ e ∈ r.after, e < 256 ^ keySize is4 := by
      intro r hr e he
      obtain ⟨p, -, rfl, rfl⟩ := mem_rangesOf.1 hr
      rw [← size_eq_keySize]
      exact p.range_lt.2 e he
    rw [← marked_of_covered_iff (markersOf_ranges hextra) hin]
    constructor
    · rintro hall a ha rfl
      rw [asSlice_eq, hlookup _ (addrNumber_lt a), hall _ (addrNumber_lt a), covered_rangesOf ha]
    · intro hall x hx
      obtain ⟨a, ha, rfl, rfl⟩ := exists_addr is4 hx
      rw [← hlookup _ hx, ← asSlice_eq, hall a ha rfl, covered_rangesOf ha]
  constructor
  · exact fun hall is4 => (hfamily is4).2 fun a ha hfam => hfam ▸ hall a ha
  · exact fun hall a ha => (hfamily a.is4).1 (hall a.is4) a ha rfl

/-- Prefixes of both families that do not touch, and one that reaches the last address. -/
theorem separate_prefixes_match : ∃ v4 v6,
    getPrefixesAsSetInterval [str "10.0.0.0/8", str "fd00::/8", str "240.0.0.0/4"] = .ok (v4, v6) ∧
    ∀ a : NetIP.Addr, a.zone = [] →
      (setContains true (if a.is4 then v4 else v6) a.asSlice = true ↔
        ∃ text ∈ [str "10.0.0.0/8", str "fd00::/8", str "240.0.0.0/4"], ∃ p,
          NetIP.parsePrefix text = some p ∧ p.contains a = true) := by
  have hrun : getPrefixesAsSetInterval [str "10.0.0.0/8", str "fd00::/8", str "240.0.0.0/4"] =
      .ok ([⟨[0, 0, 0, 0], true, []⟩, ⟨[10, 0, 0, 0], false, []⟩, ⟨[11, 0, 0, 0], true, []⟩,
          ⟨[240, 0, 0, 0], false, []⟩, ⟨[0, 0, 0, 0], true, []⟩],
        [⟨0xfd :: List.replicate 15 0, false, []⟩, ⟨0xfe :: List.replicate 15 0, true, []⟩]) := by
    rfl
  exact ⟨_, _, hrun, (prefixes_match_union_iff hrun).2 (by decide +kernel)⟩

/-- The end of a nested prefix cuts the outer one: `10.2.0.0` is in `10.0.0.0/8`, but the markers
say no. -/
theorem nested_prefix_cuts : ∃ v4,
    getPrefixesAsSetInterval [str "10.0.0.0/8", str "10.1.0.0/16"] = .ok (v4, []) ∧
    setContains true v4 (NetIP.Addr.v4 0x0a020000).asSlice = false ∧
    (NetIP.parsePrefix (str "10.0.0.0/8")).any (fun p => p.contains (.v4 0x0a020000)) = true := by
  have hrun : getPrefixesAsSetInterval [str "10.0.0.0/8", str "10.1.0.0/16"] =
      .ok ([⟨[0, 0, 0, 0], true, []⟩, ⟨[10, 0, 0, 0], false, []⟩, ⟨[11, 0, 0, 0], true, []⟩,
        ⟨[10, 1, 0, 0], false, []⟩, ⟨[10, 2, 0, 0], true, []⟩], []) := by
    rfl
  exact ⟨_, hrun, by decide +kernel, by decide +kernel⟩

end MultiNetPolicy
