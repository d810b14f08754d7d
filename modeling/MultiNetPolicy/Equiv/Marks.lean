import MultiNetPolicy.Equiv.Shape
import MultiNetPolicy.Nft.Eval

/-!
# What the rules do with the mark

Each kind of rule has one description: a condition on the packet that does not see the mark
(`holds`), and what the rule does when the condition holds.

* `evalExprs_guard`: expressions that neither read nor change the mark are such a condition.
* `exec_portsRule`, `exec_peerRule`, `exec_exceptRule`, `exec_acceptRule`: the rules of the ports,
  peers and common chains.
* `exec_markReset`, `exec_markCheck`: the rules that clear and read both marks.
-/

namespace MultiNetPolicy

open ByteString ChainMachine

section Exprs

variable (bo : ByteOrder) (k : Kernel) (p : Packet) (table : Str)

/-- The registers behind some expressions, when they match a packet; for expressions that do not
depend on the mark. -/
def guardRegs : List Expr → Registers → Option Registers
  | [], regs => some regs
  | e :: es, regs =>
    match evalExpr bo k p table e regs 0 with
    | .next regs' _ => guardRegs es regs'
    | _ => none

/-- Some expressions match a packet at the start of a rule. -/
def holds (g : List Expr) : Bool := (guardRegs bo k p table g fun _ => none).isSome

variable {bo k p table}

/-- A guard keeps the mark and does not depend on it. -/
theorem evalExpr_guard {e : Expr} (he : e.isGuard = true) (regs : Registers) (mark : BitVec 32) :
    evalExpr bo k p table e regs mark =
      match evalExpr bo k p table e regs 0 with
      | .next regs' _ => .next regs' mark
      | _ => .mismatch := by
  -- loads and comparisons do not look at the mark
  have hload : ∀ (reg : Nat) (value : Option Str) (m : BitVec 32),
      ExprResult.load reg value regs m =
        match ExprResult.load reg value regs 0 with
        | .next regs' _ => .next regs' m
        | _ => .mismatch := by
    intro reg value m
    cases value <;> rfl
  have hguard : ∀ (c : Bool) (m : BitVec 32), ExprResult.guard c regs m =
      match ExprResult.guard c regs 0 with
      | .next regs' _ => .next regs' m
      | _ => .mismatch := by
    intro c m
    cases c <;> rfl
  cases e with
  | metaExpr key write reg =>
    cases write with
    | false =>
      cases key with
      | mark => cases he
      | _ =>
        simp only [evalExpr, Packet.metaValue]
        exact hload _ _ _
    | true => cases key <;> cases he
  | lookup reg name id => exact hguard _ _
  | verdict kind chain => cases he
  | cmp op reg data => exact hguard _ _
  | payload reg base offset len => exact hload _ _ _
  | ct reg write key =>
    cases write with
    | false =>
      cases key with
      | state =>
        simp only [evalExpr]
        exact hload _ _ _
      | _ => rfl
    | true => rfl
  | bitwise src dst len mask xor => exact hload _ _ _
  | counter => rfl
  | foreign name hashed => rfl

/-- **Guards are a condition on the packet.** -/
theorem evalExprs_guard : ∀ {g : List Expr}, g.all Expr.isGuard = true → ∀ (rest : List Expr)
    (regs : Registers) (mark : BitVec 32), evalExprs bo k p table (g ++ rest) regs mark =
      match guardRegs bo k p table g regs with
      | some regs' => evalExprs bo k p table rest regs' mark
      | none => (mark, .next)
  | [], _, _, _, _ => rfl
  | e :: g, hg, rest, regs, mark => by
    rw [List.all_cons, Bool.and_eq_true] at hg
    rw [List.cons_append, evalExprs, guardRegs, evalExpr_guard hg.1 regs mark]
    cases evalExpr bo k p table e regs 0 with
    | next regs' m => exact evalExprs_guard hg.2 rest regs' mark
    | mismatch => rfl
    | verdict a => rfl

/-- A rule that starts with guards. -/
theorem exec_guard {r : Rule} {g rest : List Expr} (hg : g.all Expr.isGuard = true)
    (hr : r.exprs = g ++ rest) {mark mark' : BitVec 32} {a : Action Str}
    (hrest : ∀ regs, evalExprs bo k p table rest regs mark = (mark', a)) :
    (tableMachine bo k p table).exec r mark =
      if holds bo k p table g then (mark', a) else (mark, .next) := by
  change evalExprs bo k p table r.exprs _ mark = _
  rw [hr, evalExprs_guard hg]
  unfold holds
  cases guardRegs bo k p table g fun _ => none with
  | none => rfl
  | some regs => exact hrest regs

/-! ### Changing the mark -/

/-- Load the mark, compute with it, go on. -/
theorem evalExprs_mark_bitwise (mask xor : BitVec 32) (rest : List Expr) (regs : Registers)
    (mark : BitVec 32) : ∃ regs', regs' 1 = some (bo.putUint32 ((mark &&& mask) ^^^ xor)) ∧
      evalExprs bo k p table (.metaExpr .mark false 1 ::
        .bitwise 1 1 4 (bo.putUint32 mask) (bo.putUint32 xor) :: rest) regs mark =
      evalExprs bo k p table rest regs' mark := by
  refine ⟨Function.update (Function.update regs 1 (some (bo.putUint32 mark))) 1
    (some (bo.putUint32 ((mark &&& mask) ^^^ xor))), ?_, ?_⟩
  · rw [Function.update_self]
  · have htake : (bo.putUint32 mark).take 4 = bo.putUint32 mark :=
      List.take_of_length_le (by rw [ByteOrder.putUint32_length])
    rw [evalExprs]
    simp only [evalExpr, ExprResult.load, Packet.metaValue]
    rw [evalExprs]
    simp only [evalExpr, Function.update_self, Option.map_some, ExprResult.load, htake,
      andXor_putUint32]

theorem xor_zeroRuleMark (m : BitVec 32) : m ^^^ zeroRuleMark = m := BitVec.xor_zero

theorem and_not_xor (m b : BitVec 32) : (m &&& ~~~b) ^^^ b = m ||| b := by
  ext i hi
  simp only [BitVec.getElem_xor, BitVec.getElem_and, BitVec.getElem_not, BitVec.getElem_or]
  cases m[i] <;> cases b[i] <;> rfl

/-- Setting a bit of the mark. -/
theorem evalExprs_setMark (bit : BitVec 32) (rest : List Expr) (regs : Registers)
    (mark : BitVec 32) : ∃ regs', evalExprs bo k p table (setMark bo bit ++ rest) regs mark =
      evalExprs bo k p table rest regs' (mark ||| bit) := by
  obtain ⟨regs', hreg, heq⟩ := @evalExprs_mark_bitwise bo k p table (~~~bit) bit
    (.metaExpr .mark true 1 :: rest) regs mark
  refine ⟨regs', ?_⟩
  change evalExprs bo k p table (.metaExpr .mark false 1 :: .bitwise 1 1 4
    (bo.putUint32 (~~~bit)) (bo.putUint32 bit) :: .metaExpr .mark true 1 :: rest) regs mark = _
  rw [heq, evalExprs]
  simp only [evalExpr, hreg, ByteOrder.uint32_putUint32, and_not_xor]

theorem evalExprs_setMark_end (bit : BitVec 32) (regs : Registers) (mark : BitVec 32) :
    evalExprs bo k p table (setMark bo bit) regs mark = (mark ||| bit, .next) := by
  obtain ⟨regs', heq⟩ := @evalExprs_setMark bo k p table bit [] regs mark
  rw [List.append_nil] at heq
  rw [heq, evalExprs]

end Exprs

/-! ### The rules of ports, peers and common chains -/

section Rules

variable {bo : ByteOrder} {k : Kernel} {p : Packet} {table : Str} {r : Rule}

/-- The condition of a rule: what stands before its first access to the mark or its verdict. -/
def Rule.guards (r : Rule) : List Expr := r.exprs.takeWhile Expr.isGuard

/-- The conditions of a rule stand before its first effect. -/
theorem Rule.guards_eq {g rest : List Expr} {e : Expr} (hg : g.all Expr.isGuard = true)
    (he : e.isGuard = false) (hr : r.exprs = g ++ e :: rest) : r.guards = g := by
  unfold Rule.guards
  rw [hr, List.takeWhile_append_of_pos (List.all_eq_true.1 hg),
    List.takeWhile_cons_of_neg (by rw [he]; exact Bool.false_ne_true), List.append_nil]

/-- The rule matches a packet. -/
def Rule.isHit (bo : ByteOrder) (k : Kernel) (p : Packet) (r : Rule) : Bool :=
  holds bo k p filterTableName r.guards

/-- A rule for ports sets the port mark and goes on. -/
theorem exec_portsRule (hr : PortsRule bo r) (mark : BitVec 32) :
    (tableMachine bo k p filterTableName).exec r mark =
      (if r.isHit bo k p then mark ||| portRuleMark else mark, .next) := by
  obtain ⟨g, hg, hexprs⟩ := hr
  rw [exec_guard hg hexprs fun regs => evalExprs_setMark_end portRuleMark regs mark, Rule.isHit,
    Rule.guards_eq hg rfl hexprs]
  split <;> rfl

/-- A rule for peers sets the peer mark and leaves the chain. -/
theorem exec_peerRule (hr : PeerRule bo r) (mark : BitVec 32) :
    (tableMachine bo k p filterTableName).exec r mark =
      if r.isHit bo k p then (mark ||| peerRuleMark, .ret) else (mark, .next) := by
  obtain ⟨g, hg, hexprs⟩ := hr
  rw [List.append_assoc] at hexprs
  have hrest : ∀ regs, evalExprs bo k p filterTableName
      (setMark bo peerRuleMark ++ [.counter, .verdict .ret []]) regs mark =
      (mark ||| peerRuleMark, .ret) := by
    intro regs
    obtain ⟨regs', heq⟩ := @evalExprs_setMark bo k p filterTableName peerRuleMark
      [.counter, .verdict .ret []] regs mark
    rw [heq]
    rfl
  rw [exec_guard hg hexprs hrest, Rule.isHit, Rule.guards_eq hg rfl hexprs]

/-- The rule for all peers sets the peer mark and goes on. -/
theorem exec_allPeersRule (hr : AllPeersRule bo r) (mark : BitVec 32) :
    (tableMachine bo k p filterTableName).exec r mark = (mark ||| peerRuleMark, .next) := by
  have hexprs : r.exprs = [.counter] ++ setMark bo peerRuleMark := hr
  rw [exec_guard rfl hexprs fun regs => evalExprs_setMark_end peerRuleMark regs mark]
  rfl

/-- A rule for exceptions drops. -/
theorem exec_exceptRule (hr : ExceptRule r) (mark : BitVec 32) :
    (tableMachine bo k p filterTableName).exec r mark =
      (mark, if r.isHit bo k p then .drop else .next) := by
  obtain ⟨g, hg, hexprs⟩ := hr
  rw [exec_guard hg hexprs fun _ => rfl, Rule.isHit, Rule.guards_eq hg rfl hexprs]
  split <;> rfl

/-- A common rule accepts. -/
theorem exec_acceptRule (hr : AcceptRule r) (mark : BitVec 32) :
    (tableMachine bo k p filterTableName).exec r mark =
      (mark, if r.isHit bo k p then .accept else .next) := by
  obtain ⟨g, hg, hexprs⟩ := hr
  rw [exec_guard hg hexprs fun _ => rfl, Rule.isHit, Rule.guards_eq hg rfl hexprs]
  split <;> rfl

/-! ### The rules of policy and entry chains -/

/-- The first rule of a block clears both marks. -/
theorem exec_markReset {chainName policyName : Str} {chain : Chain} {index : Nat}
    (mark : BitVec 32) : (tableMachine bo k p table).exec
      (Render.markResetRule bo chainName chain policyName index) mark =
      (mark &&& ~~~matchRuleMark, .next) := by
  obtain ⟨regs', hreg, heq⟩ := @evalExprs_mark_bitwise bo k p table (~~~matchRuleMark)
    zeroRuleMark [.metaExpr .mark true 1, .counter] (fun _ => none) mark
  refine Eq.trans heq ?_
  rw [xor_zeroRuleMark] at hreg
  rw [evalExprs]
  simp only [evalExpr, hreg, ByteOrder.uint32_putUint32, evalExprs]

/-- The last rule of a block leaves the chain when both marks are set. -/
theorem evalExprs_markCheck (regs : Registers) (mark : BitVec 32) :
    evalExprs bo k p table (markCheck bo) regs mark =
      (mark, if mark &&& matchRuleMark = matchRuleMark then .ret else .next) := by
  obtain ⟨regs', hreg, heq⟩ := @evalExprs_mark_bitwise bo k p table matchRuleMark
    zeroRuleMark [.cmp .eq 1 (bo.putUint32 matchRuleMark), .counter, .verdict .ret []] regs mark
  refine Eq.trans heq ?_
  have htake : (bo.putUint32 (mark &&& matchRuleMark)).take (bo.putUint32 matchRuleMark).length =
      bo.putUint32 (mark &&& matchRuleMark) :=
    List.take_of_length_le (by rw [ByteOrder.putUint32_length, ByteOrder.putUint32_length])
  rw [xor_zeroRuleMark] at hreg
  have hcmp : cmpMatches .eq (bo.putUint32 (mark &&& matchRuleMark))
      (bo.putUint32 matchRuleMark) = decide (mark &&& matchRuleMark = matchRuleMark) := by
    unfold cmpMatches
    rw [htake, Bool.eq_iff_iff, beq_iff_eq, decide_eq_true_eq]
    exact ⟨fun h => bo.putUint32_injective h, fun h => by rw [h]⟩
  rw [evalExprs]
  simp only [evalExpr, hreg, Option.any_some, hcmp, ExprResult.guard]
  by_cases hboth : mark &&& matchRuleMark = matchRuleMark
  · simp only [hboth, decide_true, if_true]
    rfl
  · simp only [hboth, decide_false, if_false, Bool.false_eq_true]

/-- A rule that does nothing but jump. -/
theorem exec_jump {target comment : Str} {chain : Chain} (mark : BitVec 32)
    (hr : r = newRule chain comment [.counter, .verdict .jump target]) :
    (tableMachine bo k p table).exec r mark = (mark, .jump target) := by
  subst hr
  rfl

end Rules

end MultiNetPolicy
