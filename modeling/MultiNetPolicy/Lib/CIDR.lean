import MultiNetPolicy.Lib.NetIP
import MultiNetPolicy.Lib.Text

/-!
# Two readers of CIDR notation

Go reads `address/length` in two ways: `net.ParseCIDR` takes any decimal digits as the length,
`netip.ParsePrefix` refuses a leading zero.  `parsePrefix_isSome_iff` says that this is the only
difference on texts `ParseCIDR` accepts.
-/

namespace NetIP

open ByteString

/-- `Addr.BitLen`. -/
def Addr.bitLen : Addr → Nat
  | .v4 _ => 32
  | .v6 _ _ => 128

/-- `net.ParseCIDR`: the address and the length. -/
def parseCIDR (s : Str) : Option (Addr × Nat) :=
  match cut (str "/") s with
  | none => none
  | some (addrText, maskText) =>
    match parseAddr addrText, parseDigits maskText with
    | some addr, some len => if addr.zone = [] ∧ len ≤ addr.bitLen then some (addr, len) else none
    | _, _ => none

/-- The length is written with a zero in front of other digits. -/
def zeroPadded (s : Str) : Bool :=
  (cut (str "/") s).any fun p => 1 < p.2.length && p.2.head? == some 0x30

/-- What `ParseCIDR` accepts: an address without zone, a slash and a length that fits. -/
theorem parseCIDR_eq_some {s : Str} {addr : Addr} {len : Nat} (h : parseCIDR s = some (addr, len)) :
    ∃ addrText maskText, cut (str "/") s = some (addrText, maskText) ∧
      parseAddr addrText = some addr ∧ parseDigits maskText = some len ∧
      addr.zone = [] ∧ len ≤ addr.bitLen := by
  unfold parseCIDR at h
  split at h
  · cases h
  · rename_i addrText maskText hcut
    split at h
    · rename_i addr' len' haddr hmask
      split at h
      · rename_i hbounds
        rw [Option.some.injEq, Prod.mk.injEq] at h
        obtain ⟨rfl, rfl⟩ := h
        exact ⟨addrText, maskText, hcut, haddr, hmask, hbounds⟩
      · cases h
    · cases h

/-- Without another separator behind it, a separator is the last one. -/
theorem splitLast_append {sep : UInt8} {a b : Str} (hb : sep ∉ b) :
    splitLast sep (a ++ sep :: b) = some (a, b) := by
  have hall : ∀ x ∈ b.reverse, (x != sep) = true := by
    intro x hx
    rw [bne_iff_ne]
    rintro rfl
    exact hb (List.mem_reverse.1 hx)
  have hrev : (a ++ sep :: b).reverse = b.reverse ++ sep :: a.reverse := by simp
  rw [splitLast, if_pos (by simp), hrev, List.dropWhile_append_of_pos hall,
    List.takeWhile_append_of_pos hall]
  simp

/-- Digits of a small number are a number for `strconv.Atoi` as well. -/
theorem atoi_of_parseDigits {s : Str} {v : Nat} (h : parseDigits s = some v) (hv : v ≤ 128) :
    atoi s = some (v : Int) := by
  obtain ⟨hne, hdigits⟩ := isDigit_of_parseDigits h
  obtain ⟨b, bs, rfl⟩ := List.exists_cons_of_ne_nil hne
  have hb := hdigits b (List.mem_cons_self ..)
  have hminus : b ≠ 0x2d := by rintro rfl; exact absurd hb (by decide)
  have hplus : b ≠ 0x2b := by rintro rfl; exact absurd hb (by decide)
  have hbound : (-(2 : Int) ^ 63 ≤ (v : Int) && (v : Int) < (2 : Int) ^ 63) = true := by
    rw [Bool.and_eq_true, decide_eq_true_eq, decide_eq_true_eq]
    omega
  unfold atoi
  split
  · rename_i heq
    exact absurd (List.cons.inj heq).1 hminus
  · rename_i heq
    exact absurd (List.cons.inj heq).1 hplus
  · rw [h]
    exact (Option.filter_some ..).trans (if_pos hbound)

/-- **A text with a length `ParseCIDR` accepts is a prefix unless the length is zero-padded.** -/
theorem parsePrefix_isSome_iff {s : Str} (h : (parseCIDR s).isSome = true) :
    (parsePrefix s).isSome = true ↔ zeroPadded s = false := by
  obtain ⟨⟨addr, len⟩, hcidr⟩ := Option.isSome_iff_exists.1 h
  obtain ⟨addrText, maskText, hcut, haddr, hmask, hzone, hlen⟩ := parseCIDR_eq_some hcidr
  obtain ⟨hne, hdigits⟩ := isDigit_of_parseDigits hmask
  have hslash : (0x2f : UInt8) ∉ maskText := fun hmem => absurd (hdigits _ hmem) (by decide)
  have htext : s = addrText ++ 0x2f :: maskText := by
    rw [eq_of_cut_eq_some hcut, List.append_assoc]
    rfl
  have hsplit : splitLast 0x2f s = some (addrText, maskText) := by
    rw [htext, splitLast_append hslash]
  have hatoi : atoi maskText = some (len : Int) :=
    atoi_of_parseDigits hmask (hlen.trans (by cases addr <;> simp [Addr.bitLen]))
  have hpadded : zeroPadded s = (1 < maskText.length && maskText.head? == some 0x30 : Bool) := by
    rw [zeroPadded, hcut]
    rfl
  obtain ⟨b, bs, rfl⟩ := List.exists_cons_of_ne_nil hne
  have hb : isDigit b = true := hdigits b (List.mem_cons_self ..)
  have hhead : (b :: bs).head?.getD 0 = b := rfl
  rw [hpadded, Bool.and_eq_false_iff, decide_eq_false_iff_not, List.head?_cons, beq_eq_false_iff_ne,
    Ne, Option.some.injEq, ← not_and_or]
  unfold parsePrefix
  simp only [hsplit, haddr, hatoi, hhead, hb, and_true]
  rw [if_neg (not_not.2 hzone)]
  by_cases hzero : 1 < (b :: bs).length ∧ b = 0x30
  · rw [if_pos ⟨hzero.1, not_not.2 hzero.2⟩]
    exact ⟨fun hsome => absurd hsome Bool.false_ne_true, fun hnot => absurd hzero hnot⟩
  · have hnonneg : ¬ (len : Int) < 0 := by omega
    rw [if_neg fun hlong => hzero ⟨hlong.1, not_not.1 hlong.2⟩]
    -- within the bounds of the family both readers take the length as it is
    cases addr with
    | v4 x =>
      have hfits : (len : Int).toNat ≤ 32 := hlen
      simp only [dif_pos hfits, if_neg hnonneg]
      exact ⟨fun _ => hzero, fun _ => rfl⟩
    | v6 x z =>
      have hfits : (len : Int).toNat ≤ 128 := hlen
      simp only [dif_pos hfits, if_neg hnonneg]
      exact ⟨fun _ => hzero, fun _ => rfl⟩

end NetIP
