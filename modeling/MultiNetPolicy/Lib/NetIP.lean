import MultiNetPolicy.Lib.ByteString

/-!
# IP addresses and prefixes

The parts of Go's `net/netip` and `net` that read textual addresses: `ParseAddr`, `ParsePrefix`,
`ParseIP` with `To4` and `To16`, and the prefix operations `Masked`, `PrefixLastIP` and `Next`.
Addresses are bit vectors; `asSlice` gives their bytes in network order.
-/

namespace NetIP

open ByteString

/-- A `netip.Addr` other than the zero one. -/
inductive Addr where
  | v4 (bits : BitVec 32)
  | v6 (bits : BitVec 128) (zone : Str)
  deriving DecidableEq, Repr

namespace Addr

def is4 : Addr → Bool
  | v4 _ => true
  | v6 _ _ => false

def is6 : Addr → Bool
  | v4 _ => false
  | v6 _ _ => true

def zone : Addr → Str
  | v4 _ => []
  | v6 _ z => z

/-- `Addr.WithZone("")`. -/
def withoutZone : Addr → Addr
  | v4 x => v4 x
  | v6 x _ => v6 x []

end Addr

/-- The last `k` bytes of `n`, most significant first. -/
def beBytes : Nat → Nat → Str
  | 0, _ => []
  | k + 1, n => beBytes k (n / 256) ++ [UInt8.ofNat (n % 256)]

/-- The number written by bytes, most significant first. -/
def beNat (bs : Str) : Nat := bs.foldl (fun v b => v * 256 + b.toNat) 0

@[simp] theorem beBytes_length : ∀ k n : Nat, (beBytes k n).length = k
  | 0, _ => rfl
  | k + 1, n => by
    rw [beBytes, List.length_append, beBytes_length k]
    rfl

/-- An operation on numbers that works bit by bit works byte by byte. -/
theorem zipWith_beBytes {f : UInt8 → UInt8 → UInt8} {g : Nat → Nat → Nat}
    (hdiv : ∀ a b, g a b / 256 = g (a / 256) (b / 256))
    (hmod : ∀ a b, f (UInt8.ofNat (a % 256)) (UInt8.ofNat (b % 256)) = UInt8.ofNat (g a b % 256)) :
    ∀ k a b : Nat, List.zipWith f (beBytes k a) (beBytes k b) = beBytes k (g a b)
  | 0, _, _ => rfl
  | k + 1, a, b => by
    have hlen : (beBytes k (a / 256)).length = (beBytes k (b / 256)).length := by simp
    rw [beBytes, beBytes, List.zipWith_append hlen, zipWith_beBytes hdiv hmod k, beBytes, hdiv]
    congr 1
    rw [List.zipWith_cons_cons, List.zipWith_nil_right, hmod]

/-- Bitwise and of the bytes is that of the numbers. -/
theorem zipWith_and_beBytes (k a b : Nat) :
    List.zipWith (fun x y => x &&& y) (beBytes k a) (beBytes k b) = beBytes k (a &&& b) := by
  refine zipWith_beBytes (g := fun a b => a &&& b) (fun a b => ?_) (fun a b => ?_) k a b
  · exact Nat.and_div_two_pow (n := 8)
  · have : (a &&& b) % 256 = a % 256 &&& b % 256 := Nat.and_mod_two_pow (n := 8)
    rw [this, UInt8.ofNat_and]

/-- Bitwise xor of the bytes is that of the numbers. -/
theorem zipWith_xor_beBytes (k a b : Nat) :
    List.zipWith (fun x y => x ^^^ y) (beBytes k a) (beBytes k b) = beBytes k (a ^^^ b) := by
  refine zipWith_beBytes (g := fun a b => a ^^^ b) (fun a b => ?_) (fun a b => ?_) k a b
  · exact Nat.xor_div_two_pow (n := 8)
  · have : (a ^^^ b) % 256 = a % 256 ^^^ b % 256 := Nat.xor_mod_two_pow (n := 8)
    rw [this, UInt8.ofNat_xor]

/-- Reading big-endian bytes back. -/
theorem beNat_beBytes : ∀ k n : Nat, beNat (beBytes k n) = n % 256 ^ k
  | 0, n => by rw [Nat.pow_zero, Nat.mod_one]; rfl
  | k + 1, n => by
    have ih := beNat_beBytes k (n / 256)
    have hbyte : (UInt8.ofNat (n % 256)).toNat = n % 256 := by
      rw [UInt8.toNat_ofNat']
      omega
    unfold beNat at ih ⊢
    rw [beBytes, List.foldl_append, ih, List.foldl_cons, List.foldl_nil, hbyte, Nat.pow_succ,
      Nat.mul_comm (256 ^ k), Nat.mod_mul]
    omega

theorem beNat_append_singleton (bs : Str) (b : UInt8) :
    beNat (bs ++ [b]) = beNat bs * 256 + b.toNat := by
  rw [beNat, List.foldl_append]
  rfl

/-- Bytes are read back from their number. -/
theorem beBytes_beNat (bs : Str) : beBytes bs.length (beNat bs) = bs := by
  induction bs using List.reverseRecOn with
  | nil => rfl
  | append_singleton bs b ih =>
    have hb : b.toNat < 256 := b.toNat_lt
    have hdiv : (beNat bs * 256 + b.toNat) / 256 = beNat bs := by omega
    have hmod : (beNat bs * 256 + b.toNat) % 256 = b.toNat := by omega
    rw [List.length_append, List.length_singleton, beNat_append_singleton, beBytes, hdiv, hmod, ih,
      UInt8.ofNat_toNat]

/-- A number is bounded by the bytes it is read from. -/
theorem beNat_lt (bs : Str) : beNat bs < 256 ^ bs.length := by
  induction bs using List.reverseRecOn with
  | nil => decide
  | append_singleton bs b ih =>
    have hb : b.toNat < 256 := b.toNat_lt
    rw [List.length_append, List.length_singleton, beNat_append_singleton, Nat.pow_succ]
    omega

/-- `Addr.AsSlice`: 4 or 16 bytes in network order. -/
def Addr.asSlice : Addr → Str
  | .v4 x => beBytes 4 x.toNat
  | .v6 x _ => beBytes 16 x.toNat

/-! ### Parsing addresses -/

/-- One decimal field of a dotted address: no empty field, no leading zero, at most 255. -/
def parseOctet (p : Str) : Option UInt8 :=
  if p.length > 1 && p.head? == some 0x30 then none
  else (parseDigits p).bind fun v => if v ≤ 255 then some (UInt8.ofNat v) else none

/-- `parseIPv4Fields`: exactly four fields. -/
def parseIPv4Fields (s : Str) : Option Str :=
  ((split 0x2e s).mapM parseOctet).filter fun fields => fields.length == 4

def hexValue (b : UInt8) : Option Nat :=
  if isDigit b then some (b.toNat - 0x30)
  else if 0x61 ≤ b && b ≤ 0x66 then some (b.toNat - 0x61 + 10)
  else if 0x41 ≤ b && b ≤ 0x46 then some (b.toNat - 0x41 + 10)
  else none

/-- The loop of `parseIPv6`: `acc` holds the bytes read so far, `ellipsis` the place of `::`.
Each round reads one group, so `fuel = 8` rounds fill the sixteen bytes. -/
def parseGroups : Nat → Str → Str → Option Nat → Option (Str × Option Nat)
  | 0, _, _, _ => none
  | fuel + 1, s, acc, ellipsis =>
    let digits := s.takeWhile fun b => (hexValue b).isSome
    let rest := s.dropWhile fun b => (hexValue b).isSome
    if digits = [] ∨ digits.length > 4 then none
    else
      let value := digits.foldl (fun v b => v * 16 + (hexValue b).getD 0) 0
      let acc' := acc ++ beBytes 2 value
      match rest with
      | [] => some (acc', ellipsis)
      | 0x2e :: _ =>
        -- a trailing dotted address replaces the last two groups
        if (ellipsis = none ∧ acc.length ≠ 12) ∨ acc.length + 4 > 16 then none
        else (parseIPv4Fields s).map fun fields => (acc ++ fields, ellipsis)
      | [0x3a] => none
      | 0x3a :: 0x3a :: rest' =>
        if ellipsis.isSome then none
        else if rest' = [] then some (acc', some acc'.length)
        else parseGroups fuel rest' acc' (some acc'.length)
      | 0x3a :: rest' => parseGroups fuel rest' acc' ellipsis
      | _ => none

/-- Fill the place of `::` with zeros; without one all sixteen bytes must have been read, with one
at least one group must be missing. -/
def expandEllipsis : Str × Option Nat → Option Str
  | (bs, none) => if bs.length = 16 then some bs else none
  | (bs, some k) =>
    if bs.length < 16 then some (bs.take k ++ List.replicate (16 - bs.length) 0 ++ bs.drop k)
    else none

/-- `parseIPv6`, with the zone cut off first. -/
def parseIPv6 (input : Str) : Option Addr :=
  let s := input.takeWhile fun b => b != 0x25
  let zone := (input.dropWhile fun b => b != 0x25).drop 1
  if s ≠ input ∧ zone = [] then none
  else
    let bytes : Option Str :=
      match s with
      | 0x3a :: 0x3a :: rest =>
        if rest = [] then some (List.replicate 16 0)
        else (parseGroups 8 rest [] (some 0)).bind expandEllipsis
      | _ => (parseGroups 8 s [] none).bind expandEllipsis
    bytes.map fun bs => .v6 (BitVec.ofNat 128 (beNat bs)) zone

/-- `netip.ParseAddr`: the first of `.`, `:` and `%` decides the family. -/
def parseAddr (s : Str) : Option Addr :=
  match s.find? fun b => b == 0x2e || b == 0x3a || b == 0x25 with
  | some 0x2e => (parseIPv4Fields s).map fun bs => .v4 (BitVec.ofNat 32 (beNat bs))
  | some 0x3a => parseIPv6 s
  | _ => none

/-! ### `net.IP` -/

/-- The prefix `::ffff:0:0/96` of the IPv4-mapped addresses. -/
def mappedHigh : Nat := 0xffff

/-- `net.ParseIP`: the sixteen-byte form, `none` when unparsable or when there is a zone. -/
def parseIP (s : Str) : Option (BitVec 128) :=
  match parseAddr s with
  | some (.v4 x) => some (BitVec.ofNat 128 (mappedHigh * 2 ^ 32 + x.toNat))
  | some (.v6 x []) => some x
  | _ => none

/-- `IP.To4` of a sixteen-byte address. -/
def to4 (x : BitVec 128) : Option (BitVec 32) :=
  if x.toNat / 2 ^ 32 = mappedHigh then some (BitVec.ofNat 32 x.toNat) else none

/-! ### Prefixes -/

/-- A `netip.Prefix` as `ParsePrefix` returns it: no zone, and a length within the address. -/
inductive IPPrefix where
  | v4 (bits : BitVec 32) (len : Nat) (len_le : len ≤ 32)
  | v6 (bits : BitVec 128) (len : Nat) (len_le : len ≤ 128)

/-- The text before and after the last `sep`. -/
def splitLast (sep : UInt8) (s : Str) : Option (Str × Str) :=
  if sep ∈ s then
    some (((s.reverse.dropWhile (· != sep)).drop 1).reverse,
      (s.reverse.takeWhile (· != sep)).reverse)
  else none

/-- `netip.ParsePrefix`. -/
def parsePrefix (s : Str) : Option IPPrefix :=
  match splitLast 0x2f s with
  | none => none
  | some (addrText, bitsText) =>
    match parseAddr addrText with
    | none => none
    | some addr =>
      if addr.zone ≠ [] then none
      -- `Atoi` would accept a sign and leading zeros
      else if bitsText.length > 1 ∧
          ¬ ((bitsText.head?.getD 0) ≠ 0x30 ∧ isDigit (bitsText.head?.getD 0)) then none
      else
        match atoi bitsText with
        | none => none
        | some len =>
          match addr with
          | .v4 x => if h : len.toNat ≤ 32 then
              if len < 0 then none else some (.v4 x len.toNat h) else none
          | .v6 x _ => if h : len.toNat ≤ 128 then
              if len < 0 then none else some (.v6 x len.toNat h) else none

namespace IPPrefix

def is4 : IPPrefix → Bool
  | v4 _ _ _ => true
  | v6 _ _ _ => false

/-- `prefix.Masked().Addr().AsSlice()`: the first address. -/
def first : IPPrefix → Str
  | v4 x len _ => beBytes 4 ((x >>> (32 - len)) <<< (32 - len)).toNat
  | v6 x len _ => beBytes 16 ((x >>> (128 - len)) <<< (128 - len)).toNat

/-- The address after the last one (`PrefixLastIP(prefix).Next()`), `none` past the all-ones
address. -/
def afterLast : IPPrefix → Option Str
  | v4 x len _ =>
    let last := x ||| (BitVec.allOnes 32 >>> len)
    if last = BitVec.allOnes 32 then none else some (beBytes 4 (last + 1).toNat)
  | v6 x len _ =>
    let last := x ||| (BitVec.allOnes 128 >>> len)
    if last = BitVec.allOnes 128 then none else some (beBytes 16 (last + 1).toNat)

end IPPrefix

end NetIP
