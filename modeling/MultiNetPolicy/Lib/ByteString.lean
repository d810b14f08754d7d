import Mathlib

/-!
# Byte strings

A Go `string` is a sequence of bytes.  `Str` is that sequence, and the functions below are the
parts of `fmt`, `strings`, `strconv`, `unicode/utf8` and `hash/fnv` that work on it: decimal and
hexadecimal formatting (`%d`, `%x`, `%08x`), `strings.Split`, `strings.ReplaceAll`,
`strings.Compare`, `strings.Map` (rune by rune, an invalid byte counting as one rune),
`strconv.Atoi` and the 32-bit FNV-1a sum.

* `decimal_injective`: two numbers with the same decimal digits are equal, and `decimal` only
  writes digits (`isDigit_of_mem_decimal`), so a number can be read back behind any separator that
  is not a digit (`append_sep_decimal_inj`).
* `hexPad_injective`: the same for hexadecimal digits, with or without leading zeros.
* `fnv32a_byte_inj`: changing one byte changes the FNV sum.
* `mapRunes_of_ascii`: on ASCII a rune is a byte.
-/

namespace ByteString

/-- The bytes of a Go string. -/
abbrev Str := List UInt8

instance : LawfulBEq Str := inferInstanceAs (LawfulBEq (List UInt8))

/-- The bytes of an ASCII literal. -/
def str (s : String) : Str := s.toList.map Char.toUInt8

/-! ### Numbers -/

/-- `%d` of a natural number. -/
def decimal (n : Nat) : Str := (Nat.toDigits 10 n).map Char.toUInt8

/-- `%d` of an integer. -/
def decimalInt : Int → Str
  | .ofNat n => decimal n
  | .negSucc n => 0x2d :: decimal (n + 1)

/-- `%x` of a natural number. -/
def hex (n : Nat) : Str := (Nat.toDigits 16 n).map Char.toUInt8

/-- `%0wx` of a natural number. -/
def hexPad (w n : Nat) : Str := List.replicate (w - (hex n).length) 0x30 ++ hex n

def isDigit (b : UInt8) : Bool := 0x30 ≤ b && b ≤ 0x39

def isHex (b : UInt8) : Bool := isDigit b || (0x61 ≤ b && b ≤ 0x66)

/-- The value of a string of decimal digits, `none` when it is empty or has another byte. -/
def parseDigits : Str → Option Nat
  | [] => none
  | bs => bs.foldl (fun acc b =>
      match acc with
      | none => none
      | some v => if isDigit b then some (v * 10 + (b.toNat - 0x30)) else none) (some 0)

/-- `strconv.Atoi`: an optional sign and digits, with a value that fits an `int64`. -/
def atoi (s : Str) : Option Int :=
  let parsed : Option Int :=
    match s with
    | 0x2d :: rest => (parseDigits rest).map fun v => -(v : Int)
    | 0x2b :: rest => (parseDigits rest).map fun v => (v : Int)
    | _ => (parseDigits s).map fun v => (v : Int)
  parsed.filter fun v => -(2 : Int) ^ 63 ≤ v && v < (2 : Int) ^ 63

/-! ### Comparing, cutting and replacing -/

/-- `strings.Compare(a, b) <= 0`. -/
def le : Str → Str → Bool
  | [], _ => true
  | _ :: _, [] => false
  | a :: as, b :: bs => a < b || (a == b && le as bs)

/-- Byte-wise order is antisymmetric. -/
theorem antisymm_le : ∀ {a b : Str}, le a b = true → le b a = true → a = b
  | [], [], _, _ => rfl
  | [], _ :: _, _, h => by cases h
  | _ :: _, [], h, _ => by cases h
  | x :: as, y :: bs, hab, hba => by
    simp only [le, Bool.or_eq_true, Bool.and_eq_true, decide_eq_true_eq, beq_iff_eq] at hab hba
    rcases hab with hlt | ⟨rfl, hab⟩
    · rcases hba with hlt' | ⟨rfl, -⟩
      · exact absurd hlt (UInt8.lt_asymm hlt')
      · exact absurd hlt (UInt8.lt_irrefl y)
    · rcases hba with hlt | ⟨-, hba⟩
      · exact absurd hlt (UInt8.lt_irrefl x)
      · rw [antisymm_le hab hba]

/-- Byte-wise order is transitive. -/
theorem trans_le : ∀ {a b c : Str}, le a b = true → le b c = true → le a c = true
  | [], _, _, _, _ => rfl
  | _ :: _, [], _, h, _ => by cases h
  | _ :: _, _ :: _, [], _, h => by cases h
  | x :: as, y :: bs, z :: cs, hab, hbc => by
    simp only [le, Bool.or_eq_true, Bool.and_eq_true, decide_eq_true_eq, beq_iff_eq] at hab hbc ⊢
    rcases hab with hxy | ⟨rfl, hab⟩
    · rcases hbc with hyz | ⟨rfl, -⟩
      · exact .inl (UInt8.lt_trans hxy hyz)
      · exact .inl hxy
    · rcases hbc with hyz | ⟨rfl, hbc⟩
      · exact .inl hyz
      · exact .inr ⟨rfl, trans_le hab hbc⟩

/-- Byte-wise order is total. -/
theorem total_le : ∀ a b : Str, le a b = true ∨ le b a = true
  | [], _ => .inl rfl
  | _ :: _, [] => .inr rfl
  | x :: as, y :: bs => by
    simp only [le, Bool.or_eq_true, Bool.and_eq_true, decide_eq_true_eq, beq_iff_eq]
    rcases Nat.lt_trichotomy x.toNat y.toNat with hxy | hxy | hxy
    · exact .inl (.inl (UInt8.lt_iff_toNat_lt.2 hxy))
    · obtain rfl := UInt8.toNat_inj.1 hxy
      exact (total_le as bs).imp (fun h => .inr ⟨rfl, h⟩) fun h => .inr ⟨rfl, h⟩
    · exact .inr (.inl (UInt8.lt_iff_toNat_lt.2 hxy))

/-- `strings.HasPrefix(s, p)`. -/
def hasPrefix (s p : Str) : Bool := p.isPrefixOf s

/-- `strings.ReplaceAll(s, a, b)` for one-byte `a` and `b`. -/
def replaceAll (a b : UInt8) (s : Str) : Str := s.map fun c => if c = a then b else c

/-- `strings.ReplaceAll(s, a, "")` for a one-byte `a`. -/
def removeAll (a : UInt8) (s : Str) : Str := s.filter fun c => c != a

/-- `strings.Split(s, sep)` for a one-byte separator. -/
def split (sep : UInt8) : Str → List Str
  | [] => [[]]
  | c :: cs =>
    if c = sep then [] :: split sep cs
    else
      match split sep cs with
      | [] => [[c]]
      | p :: ps => (c :: p) :: ps

/-! ### Runes -/

def isContinuation (b : UInt8) : Bool := 0x80 ≤ b && b ≤ 0xbf

/-- The first rune of a string and its width in bytes; an invalid byte is U+FFFD of width 1
(`utf8.DecodeRuneInString`). -/
def decodeRune : Str → Nat × Nat
  | [] => (0xfffd, 0)
  | b0 :: rest =>
    if b0 < 0x80 then (b0.toNat, 1)
    else if 0xc2 ≤ b0 && b0 ≤ 0xdf then
      match rest with
      | b1 :: _ =>
        if isContinuation b1 then ((b0.toNat - 0xc0) * 64 + (b1.toNat - 0x80), 2) else (0xfffd, 1)
      | [] => (0xfffd, 1)
    else if 0xe0 ≤ b0 && b0 ≤ 0xef then
      match rest with
      | b1 :: b2 :: _ =>
        -- no overlong forms (after `e0`) and no surrogates (after `ed`)
        if isContinuation b1 && isContinuation b2 && !(b0 == 0xe0 && b1 < 0xa0) &&
            !(b0 == 0xed && 0xa0 ≤ b1) then
          ((b0.toNat - 0xe0) * 4096 + (b1.toNat - 0x80) * 64 + (b2.toNat - 0x80), 3)
        else (0xfffd, 1)
      | _ => (0xfffd, 1)
    else if 0xf0 ≤ b0 && b0 ≤ 0xf4 then
      match rest with
      | b1 :: b2 :: b3 :: _ =>
        -- no overlong forms (after `f0`) and nothing above U+10FFFF (after `f4`)
        if isContinuation b1 && isContinuation b2 && isContinuation b3 &&
            !(b0 == 0xf0 && b1 < 0x90) && !(b0 == 0xf4 && 0x90 ≤ b1) then
          ((b0.toNat - 0xf0) * 262144 + (b1.toNat - 0x80) * 4096 + (b2.toNat - 0x80) * 64 +
            (b3.toNat - 0x80), 4)
        else (0xfffd, 1)
      | _ => (0xfffd, 1)
    else (0xfffd, 1)

/-- The runes of a string; `skip` bytes still belong to the rune before. -/
def runesFrom : Nat → Str → List Nat
  | _, [] => []
  | skip + 1, _ :: bs => runesFrom skip bs
  | 0, b :: bs =>
    let (r, w) := decodeRune (b :: bs)
    r :: runesFrom (w - 1) bs

/-- The runes `range` visits in a string. -/
def runes (s : Str) : List Nat := runesFrom 0 s

/-- `strings.Map` for a mapping into ASCII, where every rune becomes one byte. -/
def mapRunes (f : Nat → UInt8) (s : Str) : Str := (runes s).map f

/-- The smallest rune of the case-folding orbit, for the orbits that meet ASCII: an upper-case
letter folds with its lower-case one, U+017F with `s` and U+212A with `k`. -/
def foldRune (r : Nat) : Nat :=
  if 0x41 ≤ r && r ≤ 0x5a then r + 0x20
  else if r = 0x17f then 0x73
  else if r = 0x212a then 0x6b
  else r

/-- `strings.EqualFold(s, t)` for an ASCII `t`. -/
def equalFold (s t : Str) : Bool := (runes s).map foldRune == (runes t).map foldRune

/-! ### FNV-1a -/

/-- The 32-bit FNV-1a sum (`fnv.New32a`). -/
def fnv32a (bs : Str) : Nat :=
  bs.foldl (fun h b => (h ^^^ b.toNat) * 16777619 % 2 ^ 32) 2166136261

/-- Hash values have 32 bits. -/
theorem fnv32a_lt (bs : Str) : fnv32a bs < 2 ^ 32 := by
  unfold fnv32a
  induction bs using List.reverseRecOn with
  | nil => norm_num
  | append_singleton bs b _ =>
    rw [List.foldl_append, List.foldl_cons, List.foldl_nil]
    exact Nat.mod_lt _ (Nat.two_pow_pos 32)

/-- One round of the sum. -/
def fnvRound (h : Nat) (b : UInt8) : Nat := (h ^^^ b.toNat) * 16777619 % 2 ^ 32

theorem xor_toNat_lt {h : Nat} (hh : h < 2 ^ 32) (b : UInt8) : h ^^^ b.toNat < 2 ^ 32 :=
  Nat.xor_lt_two_pow hh (b.toNat_lt.trans (by decide))

/-- The factor is odd, so a round loses nothing. -/
theorem fnvRound_inj {h h' : Nat} {b b' : UInt8} (hh : h < 2 ^ 32) (hh' : h' < 2 ^ 32)
    (heq : fnvRound h b = fnvRound h' b') : h ^^^ b.toNat = h' ^^^ b'.toNat := by
  have hmod : (h ^^^ b.toNat) * 16777619 ≡ (h' ^^^ b'.toNat) * 16777619 [MOD 2 ^ 32] := heq
  have hcoprime : Nat.gcd (2 ^ 32) 16777619 = 1 := by norm_num
  have hmod' := Nat.ModEq.cancel_right_of_coprime hcoprime hmod
  exact Nat.ModEq.eq_of_lt_of_lt hmod' (xor_toNat_lt hh b) (xor_toNat_lt hh' b')

/-- What is appended to two texts keeps their hash values apart: every round is injective. -/
theorem foldl_fnvRound_inj : ∀ {bs : Str} {h h' : Nat}, h < 2 ^ 32 → h' < 2 ^ 32 →
    bs.foldl fnvRound h = bs.foldl fnvRound h' → h = h'
  | [], _, _, _, _, heq => heq
  | b :: bs, h, h', hh, hh', heq => by
    have hlt : ∀ x, fnvRound x b < 2 ^ 32 := fun x => Nat.mod_lt _ (Nat.two_pow_pos 32)
    have hround := foldl_fnvRound_inj (hlt h) (hlt h') heq
    have hxor := fnvRound_inj hh hh' hround
    exact Nat.xor_left_inj.1 hxor

/-- **Changing one byte changes the sum.** -/
theorem fnv32a_byte_inj {a b : Str} {x y : UInt8}
    (h : fnv32a (a ++ x :: b) = fnv32a (a ++ y :: b)) : x = y := by
  have hlt : ∀ s c, fnvRound s c < 2 ^ 32 := fun s c => Nat.mod_lt _ (Nat.two_pow_pos 32)
  have hsplit : ∀ c, fnv32a (a ++ c :: b) = b.foldl fnvRound (fnvRound (fnv32a a) c) := by
    intro c
    unfold fnv32a
    rw [List.foldl_append, List.foldl_cons]
    rfl
  rw [hsplit, hsplit] at h
  have hround := foldl_fnvRound_inj (hlt _ _) (hlt _ _) h
  have hxor := fnvRound_inj (fnv32a_lt a) (fnv32a_lt a) hround
  exact UInt8.toNat_inj.1 (Nat.xor_right_inj.1 hxor)

/-! ### Reading formatted numbers back -/

/-- What stands before the first separator of a cut text does not depend on what follows it. -/
theorem take_append_sep {α : Type*} {sep : α} : ∀ {a b x y : List α} {n : Nat}, sep ∉ a → sep ∉ b →
    (a ++ sep :: x).take n = (b ++ sep :: y).take n →
    ∀ z : List α, (a ++ sep :: z).take n = (b ++ sep :: z).take n
  | _, _, _, _, 0, _, _, _, _ => rfl
  | [], [], _, _, _ + 1, _, _, _, _ => rfl
  | [], b :: bs, _, _, _ + 1, _, hb, h, _ => by
    rw [List.nil_append, List.cons_append, List.take_succ_cons, List.take_succ_cons,
      List.cons.injEq] at h
    exact absurd (by rw [h.1]; simp) hb
  | a :: as, [], _, _, _ + 1, ha, _, h, _ => by
    rw [List.nil_append, List.cons_append, List.take_succ_cons, List.take_succ_cons,
      List.cons.injEq] at h
    exact absurd (by rw [h.1]; simp) ha
  | a :: as, b :: bs, _, _, n + 1, ha, hb, h, z => by
    rw [List.cons_append, List.cons_append, List.take_succ_cons, List.take_succ_cons,
      List.cons.injEq] at h
    obtain ⟨rfl, h⟩ := h
    rw [List.mem_cons, not_or] at ha hb
    rw [List.cons_append, List.cons_append, List.take_succ_cons, List.take_succ_cons,
      take_append_sep ha.2 hb.2 h z]

/-- The last separator of a string splits it in one way only. -/
theorem append_sep_inj {α : Type*} {sep : α} : ∀ {a b x y : List α}, sep ∉ x → sep ∉ y →
    a ++ sep :: x = b ++ sep :: y → a = b ∧ x = y
  | [], [], _, _, _, _, h => ⟨rfl, by simpa using h⟩
  | [], b :: bs, x, y, hx, _, h => by
    rw [List.nil_append, List.cons_append, List.cons.injEq] at h
    exact absurd (by rw [h.2]; simp) hx
  | a :: as, [], x, y, _, hy, h => by
    rw [List.nil_append, List.cons_append, List.cons.injEq] at h
    exact absurd (by rw [← h.2]; simp) hy
  | a :: as, b :: bs, x, y, hx, hy, h => by
    rw [List.cons_append, List.cons_append, List.cons.injEq] at h
    obtain ⟨hab, hxy⟩ := append_sep_inj hx hy h.2
    exact ⟨by rw [h.1, hab], hxy⟩

theorem toNat_toUInt8 {c : Char} (h : c.toNat < 256) : c.toUInt8.toNat = c.toNat := by
  rw [Char.toUInt8, UInt32.toNat_toUInt8]
  exact Nat.mod_eq_of_lt h

theorem toNat_bounds_of_isDigit {c : Char} (h : c.isDigit = true) :
    48 ≤ c.toNat ∧ c.toNat ≤ 57 := by
  rw [Char.isDigit, Bool.and_eq_true, decide_eq_true_iff, decide_eq_true_iff] at h
  exact h

/-- Decimal numbers are written in digits. -/
theorem isDigit_of_mem_decimal {n : Nat} {b : UInt8} (h : b ∈ decimal n) : isDigit b = true := by
  rw [decimal, List.mem_map] at h
  obtain ⟨c, hc, rfl⟩ := h
  obtain ⟨h1, h2⟩ :=
    toNat_bounds_of_isDigit (Nat.isDigit_of_mem_toDigits (by decide) (by decide) hc)
  rw [isDigit, Bool.and_eq_true, decide_eq_true_iff, decide_eq_true_iff, UInt8.le_iff_toNat_le,
    UInt8.le_iff_toNat_le, toNat_toUInt8 (by omega)]
  exact ⟨h1, h2⟩

/-- Folding the digits of `decimal n` gives `n` back. -/
theorem foldl_decimal (n : Nat) :
    (decimal n).foldl (fun v b => 10 * v + (b.toNat - 48)) 0 = n := by
  have hfold : ∀ (l : List Char) (v : Nat), (∀ c ∈ l, c.isDigit = true) →
      (l.map Char.toUInt8).foldl (fun v b => 10 * v + (b.toNat - 48)) v
        = Nat.ofDigitChars 10 l v := by
    intro l
    induction l with
    | nil => intro v _; rfl
    | cons c l ih =>
      intro v hl
      have hc := toNat_bounds_of_isDigit (hl c (List.mem_cons_self ..))
      rw [List.map_cons, List.foldl_cons, ih _ fun d hd => hl d (List.mem_cons_of_mem _ hd),
        Nat.ofDigitChars_cons, toNat_toUInt8 (by omega)]
      rfl
  rw [decimal, hfold _ _ fun c hc => Nat.isDigit_of_mem_toDigits (by decide) (by decide) hc,
    Nat.ofDigitChars_ten_toDigits]

/-- Different numbers are written differently. -/
theorem decimal_injective : Function.Injective decimal :=
  Function.LeftInverse.injective foldl_decimal

/-- A number can be read back behind a separator that is not a digit. -/
theorem append_sep_decimal_inj {sep : UInt8} (hsep : isDigit sep = false) {a b : Str} {m n : Nat}
    (h : a ++ sep :: decimal m = b ++ sep :: decimal n) : a = b ∧ m = n := by
  have hnot : ∀ k, sep ∉ decimal k := by
    intro k hk
    rw [isDigit_of_mem_decimal hk] at hsep
    exact Bool.false_ne_true hsep.symm
  obtain ⟨hab, hmn⟩ := append_sep_inj (hnot m) (hnot n) h
  exact ⟨hab, decimal_injective hmn⟩

/-- The value of a hexadecimal digit. -/
def hexDigitValue (b : UInt8) : Nat := if b ≤ 0x39 then b.toNat - 0x30 else b.toNat - 0x57

theorem digitChar_spec {d : Nat} (hd : d < 16) :
    isHex d.digitChar.toUInt8 = true ∧ hexDigitValue d.digitChar.toUInt8 = d := by
  interval_cases d <;> decide

/-- The digits of a number are those of its quotient by 16 and one more. -/
theorem hex_eq_if (n : Nat) :
    hex n = if n < 16 then [n.digitChar.toUInt8]
      else hex (n / 16) ++ [(n % 16).digitChar.toUInt8] := by
  unfold hex
  rw [Nat.toDigits_eq_if (by decide)]
  split <;> simp

/-- Hexadecimal numbers are written in hexadecimal digits and can be read back. -/
theorem hex_spec (n : Nat) :
    (∀ b ∈ hex n, isHex b = true) ∧ (hex n).foldl (fun v b => 16 * v + hexDigitValue b) 0 = n := by
  induction n using Nat.strong_induction_on with
  | _ n ih =>
    rw [hex_eq_if]
    split
    · rename_i hn
      obtain ⟨h₁, h₂⟩ := digitChar_spec hn
      exact ⟨by simpa using h₁, by simpa using h₂⟩
    · rename_i hn
      obtain ⟨ih₁, ih₂⟩ := ih (n / 16) (by omega)
      obtain ⟨h₁, h₂⟩ := digitChar_spec (Nat.mod_lt n (by decide : 0 < 16))
      constructor
      · intro b hb
        rcases List.mem_append.1 hb with hb | hb
        · exact ih₁ b hb
        · rw [List.mem_singleton.1 hb]
          exact h₁
      · rw [List.foldl_append, ih₂, List.foldl_cons, List.foldl_nil, h₂]
        omega

theorem isHex_of_mem_hex {n : Nat} {b : UInt8} (h : b ∈ hex n) : isHex b = true :=
  (hex_spec n).1 b h

theorem hex_ne_nil (n : Nat) : hex n ≠ [] := by
  unfold hex
  rw [Ne, List.map_eq_nil_iff]
  exact Nat.toDigits_ne_nil

/-- A 32-bit sum has at most eight digits. -/
theorem hex_length_le {n : Nat} (hn : n < 2 ^ 32) : (hex n).length ≤ 8 := by
  rw [hex, List.length_map]
  exact Nat.toDigits_length 16 n 8 (by decide) (lt_of_lt_of_le hn (by norm_num))

/-- A 32-bit number fills eight places. -/
theorem hexPad_length {n : Nat} (hn : n < 2 ^ 32) : (hexPad 8 n).length = 8 := by
  have hle := hex_length_le hn
  rw [hexPad, List.length_append, List.length_replicate]
  omega

theorem isHex_of_mem_hexPad {w n : Nat} {b : UInt8} (h : b ∈ hexPad w n) : isHex b = true := by
  rcases List.mem_append.1 h with h | h
  · rw [List.eq_of_mem_replicate h]
    decide
  · exact isHex_of_mem_hex h

theorem hex_injective : Function.Injective hex :=
  Function.LeftInverse.injective (g := fun bs => bs.foldl (fun v b => 16 * v + hexDigitValue b) 0)
    fun n => (hex_spec n).2

/-- Padding does not make two numbers alike. -/
theorem hexPad_injective (w : Nat) : Function.Injective (hexPad w) := by
  refine Function.LeftInverse.injective
    (g := fun bs => bs.foldl (fun v b => 16 * v + hexDigitValue b) 0) fun n => ?_
  have hzeros : ∀ k, (List.replicate k (0x30 : UInt8)).foldl
      (fun v b => 16 * v + hexDigitValue b) 0 = 0 := by
    intro k
    induction k with
    | zero => rfl
    | succ k ih => rw [List.replicate_succ, List.foldl_cons]; exact ih
  change (hexPad w n).foldl _ 0 = n
  rw [hexPad, List.foldl_append, hzeros]
  exact (hex_spec n).2

/-! ### Runes of ASCII strings -/

/-- The runes of an ASCII text are its bytes. -/
theorem runesFrom_of_ascii : ∀ {s : Str}, (∀ b ∈ s, b < 0x80) →
    runesFrom 0 s = s.map UInt8.toNat
  | [], _ => rfl
  | b :: bs, h => by
    have hb : b < 0x80 := h b (List.mem_cons_self ..)
    have hdecode : decodeRune (b :: bs) = (b.toNat, 1) := by
      unfold decodeRune
      exact if_pos hb
    rw [runesFrom, hdecode, List.map_cons]
    exact congrArg _ (runesFrom_of_ascii fun c hc => h c (List.mem_cons_of_mem _ hc))

/-- Runes of an ASCII text are mapped byte by byte. -/
theorem mapRunes_of_ascii {f : Nat → UInt8} {s : Str} (h : ∀ b ∈ s, b < 0x80) :
    mapRunes f s = s.map fun b => f b.toNat := by
  rw [mapRunes, runes, runesFrom_of_ascii h, List.map_map]
  rfl

end ByteString
