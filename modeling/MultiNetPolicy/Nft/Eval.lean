import MultiNetPolicy.Lib.ChainMachine
import MultiNetPolicy.Nft.Kernel

/-!
# Evaluating a packet

What the kernel does with a packet that reaches a chain: the expressions of a rule load registers,
compare them, look them up in sets and change the packet mark, and a rule whose expressions all
match ends in its verdict.  An expression that does not match stops its rule, not the chain, and
leaves the mark as it is by then.

The evaluation runs on the committed ruleset as it is listed (`Kernel.chainRules`); expressions that
the daemon does not write never match.

* `andXor_putUint32`: the bitwise operation on the four bytes of a mark is `&&&` and `^^^` on the
  mark.
-/

namespace MultiNetPolicy

open ByteString

/-! ### Sets -/

/-- A key is in a set.  In an interval set it belongs to a start that is not behind it and that no
end separates from it; an end and a start of the same key leave the key inside. -/
def setContains (interval : Bool) (els : List SetElement) (key : Str) : Bool :=
  if interval then
    els.any fun s => !s.intervalEnd && le s.key key &&
      els.all fun e => !e.intervalEnd || le e.key s.key || !le e.key key
  else els.any fun e => e.key == key

/-- Lookup in a named set; a set that is not there matches nothing. -/
def Kernel.lookupSet (k : Kernel) (table name key : Str) : Bool :=
  match k.findSet table name with
  | some s => setContains s.interval (k.getElements table name) key
  | none => false

/-! ### Expressions -/

/-- What the expressions can read of a packet, the mark apart. -/
structure Packet where
  iifname : Str
  oifname : Str
  nfproto : UInt8
  l4proto : UInt8
  ctState : BitVec 32
  networkHeader : Str
  transportHeader : Str
  deriving DecidableEq, Repr

/-- The registers of a rule; nothing is loaded when the rule starts. -/
abbrev Registers := Nat → Option Str

/-- The result of one expression. -/
inductive ExprResult where
  | next (regs : Registers) (mark : BitVec 32)
  | mismatch
  | verdict (action : ChainMachine.Action Str)

/-- `NFT_BITWISE_BOOL` on the bytes of a register. -/
def andXor (data mask xor : Str) : Str :=
  List.zipWith (fun a b => a ^^^ b) (List.zipWith (fun a b => a &&& b) data mask) xor

/-- On the bytes of numbers it is the operation on the numbers. -/
theorem andXor_putUint32 (bo : ByteOrder) (v mask xor : BitVec 32) :
    andXor (bo.putUint32 v) (bo.putUint32 mask) (bo.putUint32 xor) =
      bo.putUint32 ((v &&& mask) ^^^ xor) := by
  unfold andXor
  cases bo with
  | big =>
    simp only [ByteOrder.putUint32, NetIP.zipWith_and_beBytes, NetIP.zipWith_xor_beBytes,
      BitVec.toNat_xor, BitVec.toNat_and]
  | little =>
    simp only [ByteOrder.putUint32]
    rw [← List.reverse_zipWith (by simp), NetIP.zipWith_and_beBytes,
      ← List.reverse_zipWith (by simp), NetIP.zipWith_xor_beBytes, BitVec.toNat_xor,
      BitVec.toNat_and]

/-- The bytes of a header, when it is long enough. -/
def slice (header : Str) (offset len : Nat) : Option Str :=
  if offset + len ≤ header.length then some ((header.drop offset).take len) else none

namespace Packet

variable (bo : ByteOrder) (p : Packet)

def metaValue (mark : BitVec 32) : MetaKey → Option Str
  | .iifname => some p.iifname
  | .oifname => some p.oifname
  | .nfproto => some [p.nfproto]
  | .l4proto => some [p.l4proto]
  | .mark => some (bo.putUint32 mark)
  | .other _ => none

def payloadValue (offset len : Nat) : PayloadBase → Option Str
  | .networkHeader => slice p.networkHeader offset len
  | .transportHeader => slice p.transportHeader offset len
  | .other _ => none

end Packet

/-- A register is compared on the length of the data. -/
def cmpMatches (op : CmpOp) (value data : Str) : Bool :=
  match op with
  | .eq => value.take data.length == data
  | .neq => value.take data.length != data
  | .other _ => false

/-- Load a register with a value, when there is one. -/
def ExprResult.load (reg : Nat) (value : Option Str) (regs : Registers) (mark : BitVec 32) :
    ExprResult :=
  match value with
  | some v => .next (Function.update regs reg (some v)) mark
  | none => .mismatch

/-- Go on when a condition holds. -/
def ExprResult.guard (c : Bool) (regs : Registers) (mark : BitVec 32) : ExprResult :=
  if c then .next regs mark else .mismatch

section Eval

variable (bo : ByteOrder) (k : Kernel) (p : Packet) (table : Str)

/-- The verdict expression. -/
def verdictAction (chain : Str) : VerdictKind → Option (ChainMachine.Action Str)
  | .ret => some .ret
  | .goto => some (.goto chain)
  | .jump => some (.jump chain)
  | .drop => some .drop
  | .accept => some .accept
  | .other _ => none

def evalExpr (e : Expr) (regs : Registers) (mark : BitVec 32) : ExprResult :=
  match e with
  | .metaExpr key false reg => .load reg (p.metaValue bo mark key) regs mark
  | .metaExpr .mark true reg =>
    match regs reg with
    | some v => .next regs (bo.uint32 v)
    | none => .mismatch
  | .metaExpr _ true _ => .mismatch
  | .lookup reg name _ => .guard ((regs reg).any (k.lookupSet table name)) regs mark
  | .verdict kind chain =>
    match verdictAction chain kind with
    | some a => .verdict a
    | none => .mismatch
  | .cmp op reg data => .guard ((regs reg).any fun v => cmpMatches op v data) regs mark
  | .payload reg base offset len => .load reg (p.payloadValue offset len base) regs mark
  | .ct reg false .state => .load reg (some (bo.putUint32 p.ctState)) regs mark
  | .ct _ _ _ => .mismatch
  | .bitwise src dst len mask xor =>
    .load dst ((regs src).map fun v => andXor (v.take len) mask xor) regs mark
  | .counter => .next regs mark
  | .foreign _ _ => .mismatch

/-- The expressions of a rule, in order. -/
def evalExprs : List Expr → Registers → BitVec 32 → BitVec 32 × ChainMachine.Action Str
  | [], _, mark => (mark, .next)
  | e :: es, regs, mark =>
    match evalExpr bo k p table e regs mark with
    | .next regs' mark' => evalExprs es regs' mark'
    | .mismatch => (mark, .next)
    | .verdict a => (mark, a)

/-- Of the ruleset the expressions read the sets that they look up. -/
theorem evalExprs_congr {k' : Kernel} {es : List Expr}
    (h : ∀ reg name id, .lookup reg name id ∈ es → ∀ key,
      k'.lookupSet table name key = k.lookupSet table name key) (regs : Registers)
    (mark : BitVec 32) :
    evalExprs bo k p table es regs mark = evalExprs bo k' p table es regs mark := by
  induction es generalizing regs mark with
  | nil => rfl
  | cons e es ih =>
    have hes := ih fun reg name id he => h reg name id (List.mem_cons_of_mem _ he)
    have he : evalExpr bo k p table e regs mark = evalExpr bo k' p table e regs mark := by
      cases e with
      | lookup reg name id =>
        have hsame : k.lookupSet table name = k'.lookupSet table name :=
          funext fun key => (h reg name id (List.mem_cons_self ..) key).symm
        rw [evalExpr, evalExpr, hsame]
      | metaExpr key source reg => cases source <;> cases key <;> rfl
      | ct reg source key => cases source <;> cases key <;> rfl
      | _ => rfl
    rw [evalExprs, evalExprs, he]
    cases evalExpr bo k' p table e regs mark with
    | next regs' mark' => exact hes regs' mark'
    | mismatch => rfl
    | verdict a => rfl

/-- The chains of a table, for a packet. -/
def tableMachine : ChainMachine.Machine Rule (BitVec 32) Str where
  exec r mark := evalExprs bo k p table r.exprs (fun _ => none) mark
  body c := k.chainRules table c

end Eval

/-- `NFT_JUMP_STACK_SIZE`. -/
def jumpStackSize : Nat := 16

/-- A packet with a mark walks through a chain of a table: the mark it leaves with and the
verdict. -/
def evalChain (bo : ByteOrder) (k : Kernel) (p : Packet) (table chain : Str) (mark : BitVec 32) :
    BitVec 32 × ChainMachine.Verdict :=
  ChainMachine.evalChain (tableMachine bo k p table) jumpStackSize chain mark

end MultiNetPolicy
