import MultiNetPolicy.Lib.NetIP

/-!
# nftables objects

The objects of `github.com/google/nftables` as the daemon builds and reads them: chains, sets and
their elements, expressions and rules.  Every table is of the `inet` family, the only one the
daemon works in, so a table is its name.  Expressions that the daemon never writes are `foreign`.
-/

namespace MultiNetPolicy

open ByteString

/-! ### Expressions -/

/-- `expr.MetaKey`. -/
inductive MetaKey where
  | iifname
  | oifname
  | nfproto
  | l4proto
  | mark
  | other (code : Nat)
  deriving DecidableEq, Repr

/-- `expr.CmpOp`. -/
inductive CmpOp where
  | eq
  | neq
  | other (code : Nat)
  deriving DecidableEq, Repr

/-- `expr.PayloadBase`. -/
inductive PayloadBase where
  | networkHeader
  | transportHeader
  | other (code : Nat)
  deriving DecidableEq, Repr

/-- `expr.CtKey`. -/
inductive CtKey where
  | state
  | other (code : Nat)
  deriving DecidableEq, Repr

/-- `expr.VerdictKind`. -/
inductive VerdictKind where
  | ret
  | goto
  | jump
  | drop
  | accept
  | other (code : Nat)
  deriving DecidableEq, Repr

/-- `expr.Any`.  A counter has no value here: its packet and byte counts are statistics that no
decision reads (`ruleEqual` compares two counters as equal and `newRuleData` skips them).
`foreign` is any other expression a listed rule may hold; `hashed` says whether its Go type is one
of the seven that `newRuleData` hashes. -/
inductive Expr where
  | metaExpr (key : MetaKey) (sourceRegister : Bool) (register : Nat)
  | lookup (sourceRegister : Nat) (setName : Str) (setID : Nat)
  | verdict (kind : VerdictKind) (chain : Str)
  | cmp (op : CmpOp) (register : Nat) (data : Str)
  | payload (destRegister : Nat) (base : PayloadBase) (offset len : Nat)
  | ct (register : Nat) (sourceRegister : Bool) (key : CtKey)
  | bitwise (sourceRegister destRegister len : Nat) (mask xor : Str)
  | counter
  | foreign (code : Nat) (hashed : Bool)
  deriving DecidableEq, Repr

namespace Expr

/-- The expression as the kernel lists it: a lookup comes back with its set's name and without the
transaction-local set ID. -/
def listed : Expr → Expr
  | lookup reg name _ => lookup reg name 0
  | e => e

/-- The types that `newRuleData` hashes. -/
def isHashed : Expr → Bool
  | counter => false
  | foreign _ hashed => hashed
  | _ => true

end Expr

/-! ### Rules, chains and sets -/

/-- `nftables.Rule`.  `handle` is 0 for a rule that is not committed. -/
structure Rule where
  table : Str
  chain : Str
  handle : Nat
  userData : Str
  exprs : List Expr
  deriving DecidableEq, Repr

namespace Rule

/-- The rule as the kernel lists it. -/
def listed (r : Rule) : Rule := { r with exprs := r.exprs.map Expr.listed }

/-- The rule without the handle that names it in the kernel. -/
def erase (r : Rule) : Rule := { r with handle := 0 }

end Rule

/-- `nftables.ChainType`, `ChainHook` and `ChainPriority` of a base chain. -/
structure ChainHook where
  type : Str
  hooknum : Str
  priority : Int
  deriving DecidableEq, Repr

/-- `nftables.Chain`; a regular chain has no hook. -/
structure Chain where
  table : Str
  name : Str
  hook : Option ChainHook
  deriving DecidableEq, Repr

/-- The set key types in use (`nftables.SetDatatype`). -/
inductive SetDatatype where
  | ipAddr
  | ip6Addr
  | inetService
  | ifName
  | icmp6Type
  | other (magic : Nat)
  deriving DecidableEq, Repr

/-- `nftables.Set`.  `id` is only valid inside the transaction that creates the set. -/
structure NftSet where
  table : Str
  name : Str
  id : Nat
  anonymous : Bool
  constant : Bool
  interval : Bool
  counter : Bool
  keyType : SetDatatype
  comment : Str
  deriving DecidableEq, Repr

/-- `nftables.SetElement`. -/
structure SetElement where
  key : Str
  intervalEnd : Bool
  comment : Str
  deriving DecidableEq, Repr

/-! ### Byte order -/

/-- The byte order of the host, `binaryutil.NativeEndian`. -/
inductive ByteOrder where
  | little
  | big
  deriving DecidableEq, Repr

namespace ByteOrder

/-- `NativeEndian.PutUint32`. -/
def putUint32 : ByteOrder → BitVec 32 → Str
  | big, v => NetIP.beBytes 4 v.toNat
  | little, v => (NetIP.beBytes 4 v.toNat).reverse

/-- `NativeEndian.Uint32`. -/
def uint32 : ByteOrder → Str → BitVec 32
  | big, bs => BitVec.ofNat 32 (NetIP.beNat bs)
  | little, bs => BitVec.ofNat 32 (NetIP.beNat bs.reverse)

/-- What is written can be read back. -/
@[simp] theorem uint32_putUint32 (bo : ByteOrder) (v : BitVec 32) :
    bo.uint32 (bo.putUint32 v) = v := by
  have hbytes : BitVec.ofNat 32 (NetIP.beNat (NetIP.beBytes 4 v.toNat)) = v := by
    have hlt : v.toNat < 256 ^ 4 := v.isLt
    rw [NetIP.beNat_beBytes, Nat.mod_eq_of_lt hlt, BitVec.ofNat_toNat, BitVec.setWidth_eq]
  cases bo with
  | big => exact hbytes
  | little =>
    simp only [putUint32, uint32, List.reverse_reverse]
    exact hbytes

theorem putUint32_injective (bo : ByteOrder) {v w : BitVec 32}
    (h : bo.putUint32 v = bo.putUint32 w) : v = w := by
  rw [← uint32_putUint32 bo v, h, uint32_putUint32]

@[simp] theorem putUint32_length (bo : ByteOrder) (v : BitVec 32) :
    (bo.putUint32 v).length = 4 := by
  cases bo <;> simp [putUint32]

end ByteOrder

end MultiNetPolicy
