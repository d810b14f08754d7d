import MultiNetPolicy.Lib.Intervals
import MultiNetPolicy.Lib.NetIP

/-!
# Prefixes as ranges of numbers

The bytes of numbers in network order compare as the numbers do (`le_beBytes`), and the addresses of
a prefix are the numbers from its first address to its last one (`mem_range_iff`), which
`IPPrefix.range` gives as a half-open interval.
-/

namespace NetIP

open ByteString Intervals

/-! ### Comparing keys -/

/-- Keys of one length are compared by their first bytes, and by the last one where these agree. -/
theorem le_append_singleton {as bs : Str} (h : as.length = bs.length) (x y : UInt8) :
    le (as ++ [x]) (bs ++ [y]) = true ↔ (as ≠ bs ∧ le as bs = true) ∨ (as = bs ∧ x ≤ y) := by
  induction as generalizing bs with
  | nil =>
    obtain rfl : bs = [] := List.length_eq_zero_iff.1 h.symm
    simp only [List.nil_append, le, Bool.or_eq_true, decide_eq_true_eq, Bool.and_true, beq_iff_eq,
      ne_eq, not_true_eq_false, false_and, true_and, false_or]
    rw [UInt8.lt_iff_toNat_lt, UInt8.le_iff_toNat_le, ← UInt8.toNat_inj]
    omega
  | cons a as ih =>
    cases bs with
    | nil => cases h
    | cons b bs =>
      have hlen : as.length = bs.length := by simpa using h
      have hlt : a < b → a ≠ b := by
        rintro hab rfl
        exact UInt8.lt_irrefl a hab
      simp only [List.cons_append, le, Bool.or_eq_true, decide_eq_true_eq, Bool.and_eq_true,
        beq_iff_eq, ih hlen, ne_eq, List.cons.injEq]
      tauto

/-- Numbers that fit are told apart by their bytes. -/
theorem beBytes_inj {n a b : Nat} (ha : a < 256 ^ n) (hb : b < 256 ^ n)
    (h : beBytes n a = beBytes n b) : a = b := by
  have hnat := congrArg beNat h
  rwa [beNat_beBytes, beNat_beBytes, Nat.mod_eq_of_lt ha, Nat.mod_eq_of_lt hb] at hnat

/-- Keys in network order compare as numbers. -/
theorem le_beBytes : ∀ {n a b : Nat}, a < 256 ^ n → b < 256 ^ n →
    (le (beBytes n a) (beBytes n b) = true ↔ a ≤ b)
  | 0, a, b, ha, hb => by
    have hzero : a = 0 ∧ b = 0 := by
      rw [Nat.pow_zero] at ha hb
      omega
    simp [beBytes, le, hzero]
  | n + 1, a, b, ha, hb => by
    have ha' : a / 256 < 256 ^ n := by
      rw [Nat.pow_succ, Nat.mul_comm] at ha
      exact Nat.div_lt_of_lt_mul ha
    have hb' : b / 256 < 256 ^ n := by
      rw [Nat.pow_succ, Nat.mul_comm] at hb
      exact Nat.div_lt_of_lt_mul hb
    have heq : beBytes n (a / 256) = beBytes n (b / 256) ↔ a / 256 = b / 256 :=
      ⟨beBytes_inj ha' hb', fun h => by rw [h]⟩
    have hbyte : UInt8.ofNat (a % 256) ≤ UInt8.ofNat (b % 256) ↔ a % 256 ≤ b % 256 := by
      rw [UInt8.le_iff_toNat_le, UInt8.toNat_ofNat', UInt8.toNat_ofNat']
      omega
    rw [beBytes, beBytes, le_append_singleton (by simp), ne_eq, heq, le_beBytes ha' hb', hbyte]
    omega

/-! ### The addresses of a prefix -/

/-- Setting the low bits of a number. -/
theorem or_low_bits (a s : Nat) : a ||| (2 ^ s - 1) = 2 ^ s * (a / 2 ^ s) + (2 ^ s - 1) := by
  have hlow : 2 ^ s - 1 < 2 ^ s := Nat.sub_lt (Nat.two_pow_pos s) Nat.one_pos
  apply Nat.eq_of_testBit_eq
  intro j
  rw [Nat.testBit_or, Nat.testBit_two_pow_sub_one, Nat.testBit_two_pow_mul_add _ hlow,
    Nat.testBit_two_pow_sub_one, Nat.testBit_div_two_pow]
  by_cases hj : j < s
  · simp [hj]
  · simp only [hj, decide_false, Bool.or_false, if_false]
    rw [Nat.sub_add_cancel (not_lt.1 hj)]

/-- The numbers of the addresses that agree with `x` in their first `len` bits. -/
def rangeOf {w : Nat} (x : BitVec w) (len : Nat) : HalfOpen Nat where
  first := 2 ^ (w - len) * (x.toNat / 2 ^ (w - len))
  after :=
    if 2 ^ (w - len) * (x.toNat / 2 ^ (w - len)) + 2 ^ (w - len) = 2 ^ w then none
    else some (2 ^ (w - len) * (x.toNat / 2 ^ (w - len)) + 2 ^ (w - len))
  first_lt := by
    intro e he
    have hpos : 0 < 2 ^ (w - len) := Nat.two_pow_pos _
    rw [Option.mem_def, Option.ite_none_left_eq_some, Option.some.injEq] at he
    omega

section Width

variable {w : Nat} (x : BitVec w) (len : Nat)

/-- The first address of a prefix: the bits behind the prefix are zero. -/
theorem toNat_first : ((x >>> (w - len)) <<< (w - len)).toNat =
    2 ^ (w - len) * (x.toNat / 2 ^ (w - len)) := by
  have hle : x.toNat / 2 ^ (w - len) * 2 ^ (w - len) ≤ x.toNat := Nat.div_mul_le_self _ _
  rw [BitVec.toNat_shiftLeft, BitVec.toNat_ushiftRight, Nat.shiftRight_eq_div_pow,
    Nat.shiftLeft_eq, Nat.mod_eq_of_lt (hle.trans_lt x.isLt), Nat.mul_comm]

/-- The last address of a prefix: the bits behind the prefix are one. -/
theorem toNat_last (hlen : len ≤ w) : (x ||| (BitVec.allOnes w >>> len)).toNat =
    2 ^ (w - len) * (x.toNat / 2 ^ (w - len)) + (2 ^ (w - len) - 1) := by
  have hones : (2 ^ w - 1) / 2 ^ len = 2 ^ (w - len) - 1 := by
    have hsplit : 2 ^ w = 2 ^ len * 2 ^ (w - len) := by rw [← Nat.pow_add, Nat.add_sub_cancel' hlen]
    have hpos : 0 < 2 ^ len := Nat.two_pow_pos len
    have hpos' : 0 < 2 ^ (w - len) := Nat.two_pow_pos _
    rw [hsplit]
    apply Nat.div_eq_of_lt_le
    · calc (2 ^ (w - len) - 1) * 2 ^ len = 2 ^ len * 2 ^ (w - len) - 2 ^ len := by
            rw [Nat.sub_mul, Nat.one_mul, Nat.mul_comm]
        _ ≤ 2 ^ len * 2 ^ (w - len) - 1 := by omega
    · rw [Nat.sub_add_cancel hpos', Nat.mul_comm]
      exact Nat.sub_lt (Nat.mul_pos hpos' hpos) Nat.one_pos
  rw [BitVec.toNat_or, BitVec.toNat_ushiftRight, BitVec.toNat_allOnes, Nat.shiftRight_eq_div_pow,
    hones, or_low_bits]

/-- The range ends where the addresses end, or before. -/
theorem rangeOf_end_le : 2 ^ (w - len) * (x.toNat / 2 ^ (w - len)) + 2 ^ (w - len) ≤ 2 ^ w := by
  have hpow : 2 ^ (w - len) ≤ 2 ^ w := Nat.pow_le_pow_right Nat.two_pos (Nat.sub_le _ _)
  have hbound : x.toNat ||| (2 ^ (w - len) - 1) < 2 ^ w :=
    Nat.or_lt_two_pow x.isLt (by have := Nat.two_pow_pos (w - len); omega)
  rw [or_low_bits] at hbound
  have hpos := Nat.two_pow_pos (w - len)
  omega

/-- The range holds exactly the addresses with the same first bits. -/
theorem contains_rangeOf (y : BitVec w) :
    (rangeOf x len).Contains y.toNat ↔ x >>> (w - len) = y >>> (w - len) := by
  have hpos : 0 < 2 ^ (w - len) := Nat.two_pow_pos _
  have hend := rangeOf_end_le x len
  have hlt := y.isLt
  have hshift : x >>> (w - len) = y >>> (w - len) ↔
      x.toNat / 2 ^ (w - len) = y.toNat / 2 ^ (w - len) := by
    rw [← BitVec.toNat_inj, BitVec.toNat_ushiftRight, BitVec.toNat_ushiftRight,
      Nat.shiftRight_eq_div_pow, Nat.shiftRight_eq_div_pow]
  have hafter : (∀ e ∈ (rangeOf x len).after, y.toNat < e) ↔
      y.toNat < 2 ^ (w - len) * (x.toNat / 2 ^ (w - len)) + 2 ^ (w - len) := by
    change (∀ e ∈ (if _ = _ then none else some _), _) ↔ _
    split
    · rename_i htop
      simp only [Option.mem_def, reduceCtorEq, false_implies, implies_true, true_iff]
      omega
    · simp
  rw [hshift, HalfOpen.Contains, hafter]
  change 2 ^ (w - len) * (x.toNat / 2 ^ (w - len)) ≤ y.toNat ∧ _ ↔ _
  constructor
  · rintro ⟨hle, hlt⟩
    symm
    apply Nat.div_eq_of_lt_le
    · rw [Nat.mul_comm]
      exact hle
    · rw [Nat.add_mul, Nat.one_mul, Nat.mul_comm]
      exact hlt
  · intro hq
    have hdiv := Nat.div_add_mod y.toNat (2 ^ (w - len))
    have hmod := Nat.mod_lt y.toNat hpos
    rw [hq]
    omega

/-- The last address is the all-ones address, or the next one is behind the range. -/
theorem after_rangeOf (hlen : len ≤ w) :
    (if x ||| (BitVec.allOnes w >>> len) = BitVec.allOnes w then none
      else some ((x ||| (BitVec.allOnes w >>> len)) + 1).toNat) = (rangeOf x len).after := by
  have hpos : 0 < 2 ^ (w - len) := Nat.two_pow_pos _
  have hend := rangeOf_end_le x len
  have hlast := toNat_last x len hlen
  have htop : x ||| (BitVec.allOnes w >>> len) = BitVec.allOnes w ↔
      2 ^ (w - len) * (x.toNat / 2 ^ (w - len)) + 2 ^ (w - len) = 2 ^ w := by
    rw [← BitVec.toNat_inj, BitVec.toNat_allOnes, hlast]
    have := Nat.two_pow_pos w
    omega
  change _ = if _ = _ then none else some _
  by_cases h : x ||| (BitVec.allOnes w >>> len) = BitVec.allOnes w
  · rw [if_pos h, if_pos (htop.1 h)]
  · rw [if_neg h, if_neg (mt htop.2 h)]
    have hlt : 2 ^ (w - len) * (x.toNat / 2 ^ (w - len)) + 2 ^ (w - len) < 2 ^ w :=
      lt_of_le_of_ne hend (mt htop.2 h)
    have hone : (1#w).toNat = 1 := by
      rw [BitVec.toNat_ofNat]
      exact Nat.mod_eq_of_lt (by omega)
    have hsum : ((x ||| (BitVec.allOnes w >>> len)) + 1#w).toNat =
        2 ^ (w - len) * (x.toNat / 2 ^ (w - len)) + 2 ^ (w - len) := by
      rw [BitVec.toNat_add, hlast, hone, Nat.mod_eq_of_lt (by omega)]
      omega
    exact congrArg some hsum

end Width

namespace IPPrefix

/-- The number of bytes of an address. -/
def size : IPPrefix → Nat
  | v4 _ _ _ => 4
  | v6 _ _ _ => 16

/-- The numbers of the addresses of a prefix. -/
def range : IPPrefix → HalfOpen Nat
  | v4 x len _ => rangeOf x len
  | v6 x len _ => rangeOf x len

/-- `Prefix.Contains`: an address without a zone of the prefix's family that has its first bits. -/
def contains : IPPrefix → Addr → Bool
  | v4 x len _, .v4 y => x >>> (32 - len) == y >>> (32 - len)
  | v6 x len _, .v6 y zone => zone.isEmpty && x >>> (128 - len) == y >>> (128 - len)
  | _, _ => false

/-- `netipx.PrefixLastIP(prefix).AsSlice()`: the last address. -/
def last : IPPrefix → Str
  | v4 x len _ => beBytes 4 (x ||| (BitVec.allOnes 32 >>> len)).toNat
  | v6 x len _ => beBytes 16 (x ||| (BitVec.allOnes 128 >>> len)).toNat

theorem first_eq (p : IPPrefix) : p.first = beBytes p.size p.range.first := by
  cases p with
  | v4 x len hlen => exact congrArg (beBytes 4) (toNat_first x len)
  | v6 x len hlen => exact congrArg (beBytes 16) (toNat_first x len)

/-- The key behind a prefix, if there is one. -/
theorem afterLast_eq (p : IPPrefix) : p.afterLast = p.range.after.map (beBytes p.size) := by
  cases p with
  | v4 x len hlen =>
    rw [afterLast, range, ← after_rangeOf x len hlen]
    split <;> rfl
  | v6 x len hlen =>
    rw [afterLast, range, ← after_rangeOf x len hlen]
    split <;> rfl

/-- A prefix has an address. -/
theorem first_le_last (p : IPPrefix) : le p.first p.last = true := by
  have hwidth : ∀ {w : Nat} (x : BitVec w) (len : Nat), len ≤ w →
      ((x >>> (w - len)) <<< (w - len)).toNat ≤ (x ||| (BitVec.allOnes w >>> len)).toNat := by
    intro w x len hlen
    rw [toNat_first, toNat_last x len hlen]
    omega
  cases p with
  | v4 x len hlen =>
    have hlt : ∀ y : BitVec 32, y.toNat < 256 ^ 4 := fun y => y.isLt
    exact (le_beBytes (hlt _) (hlt _)).2 (hwidth x len hlen)
  | v6 x len hlen =>
    have hlt : ∀ y : BitVec 128, y.toNat < 256 ^ 16 := fun y => y.isLt
    exact (le_beBytes (hlt _) (hlt _)).2 (hwidth x len hlen)

/-- A range lies within the keys of its size. -/
theorem range_lt (p : IPPrefix) :
    p.range.first < 256 ^ p.size ∧ ∀ e ∈ p.range.after, e < 256 ^ p.size := by
  have hwidth : ∀ {w : Nat} (x : BitVec w) (len : Nat), (rangeOf x len).first < 2 ^ w ∧
      ∀ e ∈ (rangeOf x len).after, e < 2 ^ w := by
    intro w x len
    have hend := rangeOf_end_le x len
    have hpos : 0 < 2 ^ (w - len) := Nat.two_pow_pos _
    unfold rangeOf
    refine ⟨by change 2 ^ (w - len) * (x.toNat / 2 ^ (w - len)) < 2 ^ w; omega, fun e he => ?_⟩
    rw [Option.mem_def, Option.ite_none_left_eq_some, Option.some.injEq] at he
    omega
  cases p with
  | v4 x len hlen => exact hwidth x len
  | v6 x len hlen => exact hwidth x len

end IPPrefix

end NetIP
