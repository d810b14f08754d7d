import MultiNetPolicy.Equiv.Blocks
import MultiNetPolicy.Equiv.Union

/-!
# Marks that are not the daemon's

In every state of a history, also between the main flush of a run and its end, a packet keeps the
bits of its mark that are not the daemon's on every path through the daemon's chains.

* `RunCall.keepsForeign`: what holds of every rule that a run may ask for.
* `Drawn`: the rules of a history are rules that its runs asked for.
* `marks_framed`: the bits on every path, and the two marks behind the chains of a rule.
-/

namespace MultiNetPolicy

open ByteString ChainMachine

/-! ### Rules -/

/-- Executing a rule keeps the bits that are not the daemon's. -/
def KeepsForeign (bo : ByteOrder) (r : Rule) : Prop :=
  ∀ k pkt m, SameForeign m ((tableMachine bo k pkt filterTableName).exec r m).1

/-- Setting a bit of the daemon. -/
theorem sameForeign_or {bit : BitVec 32} (hbit : bit &&& ~~~matchRuleMark = 0) (m : BitVec 32) :
    SameForeign m (m ||| bit) := by
  unfold SameForeign
  rw [BitVec.and_or_distrib_right, hbit]
  exact BitVec.or_zero.symm

section Rules

variable {bo : ByteOrder} {r : Rule}

/-- Rules that only give a verdict. -/
theorem VerdictRule.keepsForeign (hr : VerdictRule r) : KeepsForeign bo r := by
  obtain ⟨g, kind, chain, hg, hexprs⟩ := hr
  intro k pkt m
  have hrest : ∀ regs, (evalExprs bo k pkt filterTableName [.verdict kind chain] regs m).1 = m := by
    intro regs
    rw [evalExprs, evalExpr]
    cases verdictAction chain kind <;> rfl
  change SameForeign m (evalExprs bo k pkt filterTableName r.exprs (fun _ => none) m).1
  rw [hexprs, evalExprs_guard hg]
  cases guardRegs bo k pkt filterTableName g fun _ => none with
  | none => rfl
  | some regs =>
    rw [hrest]

/-- Rules of base, entry and policy chains. -/
theorem FlowRule.keepsForeign (hr : FlowRule bo r) : KeepsForeign bo r := by
  cases hr with
  | verdict hr => exact hr.keepsForeign
  | check hr =>
    intro k pkt m
    change SameForeign m (evalExprs bo k pkt filterTableName r.exprs (fun _ => none) m).1
    rw [hr, evalExprs_markCheck]
  | reset chainName chain policyName index hr =>
    intro k pkt m
    rw [hr, exec_markReset]
    unfold SameForeign
    rw [BitVec.and_assoc, BitVec.and_self]

theorem PortsRule.keepsForeign (hr : PortsRule bo r) : KeepsForeign bo r := by
  intro k pkt m
  rw [exec_portsRule hr]
  split
  · exact sameForeign_or (by decide) m
  · rfl

theorem PeersRule.keepsForeign {peers : List MultiNetworkPolicyPeer} (hr : PeersRule bo peers r) :
    KeepsForeign bo r := by
  intro k pkt m
  cases hr with
  | all _ hr =>
    rw [exec_allPeersRule hr]
    exact sameForeign_or (by decide) m
  | peer hr =>
    rw [exec_peerRule hr]
    split
    · exact sameForeign_or (by decide) m
    · rfl
  | except _ hr => rw [exec_exceptRule hr]

theorem VerdictRule.content (hr : VerdictRule r) : VerdictRule r.content := by
  obtain ⟨g, kind, chain, hg, hexprs⟩ := hr
  refine ⟨g.map Expr.listed, kind, chain, all_isGuard_listed hg, ?_⟩
  change r.exprs.map Expr.listed = _
  rw [hexprs, List.map_append]
  rfl

/-- The rule as it is listed. -/
theorem FlowRule.content_keepsForeign (hr : FlowRule bo r) : KeepsForeign bo r.content := by
  cases hr with
  | verdict hr => exact hr.content.keepsForeign
  | check hr =>
    refine FlowRule.keepsForeign (.check ?_)
    change r.exprs.map Expr.listed = _
    rw [hr]
    rfl
  | reset chainName chain policyName index hr =>
    have hcontent : r.content = r := by rw [hr]; rfl
    rw [hcontent]
    exact FlowRule.keepsForeign (.reset chainName chain policyName index hr)

/-- **Every rule that a run asks for**, as it is listed. -/
theorem RunCall.keepsForeign {i : Input} (hr : RunCall bo i r) : KeepsForeign bo r.content := by
  cases hr with
  | hook _ hshape => exact hshape.content_keepsForeign
  | entry _ _ hshape => exact hshape.content_keepsForeign
  | common _ _ hshape =>
    obtain ⟨g, hg, hexprs⟩ := hshape
    exact VerdictRule.keepsForeign (VerdictRule.content ⟨g, _, _, hg, hexprs⟩)
  | policy d p _ hr =>
    cases hr with
    | policy _ hshape => exact hshape.content_keepsForeign
    | ports _ _ _ hshape => exact hshape.content.keepsForeign
    | peers _ _ _ hshape => exact hshape.content.keepsForeign

end Rules

/-! ### Histories -/

/-- A run applies policies of the history only. -/
def Input.Within (ps : List MultiNetworkPolicy) (i : Input) : Prop :=
  ∀ d, ∀ p ∈ i.policiesIn d, p.policy ∈ ps

/-- The states of a history: at the end of a run, and between its main flush and its cleanup. -/
inductive Reached (bo : ByteOrder) (ps : List MultiNetworkPolicy) : Kernel → Prop where
  | ended {k : Kernel} {last : Option Input} (hr : Runs bo (fun _ i _ _ => i.Within ps) k last) :
      Reached bo ps k
  | flushed {h : Host} {i : Input} {k : Kernel} {last : Option Input} {s : State}
      (hr : Runs bo (fun _ i _ _ => i.Within ps) k last) (hbo : h.byteOrder = bo)
      (hs : commitRules h i (State.new k) = .ok () s) (hi : i.Within ps) : Reached bo ps s.kernel

/-- The rules of the filter table are ones that some run of the history asks for. -/
def Drawn (bo : ByteOrder) (ps : List MultiNetworkPolicy) (k : Kernel) : Prop :=
  ∀ c, ∀ x ∈ k.chainRules filterTableName c,
    ∃ i r, i.Within ps ∧ RunCall bo i r ∧ r.chain = c ∧ r.content = x

/-- What the rules of a chain are for. -/
inductive ChainKind where
  | blocks
  | ports
  | peers
  deriving DecidableEq, Repr

def ChainRole.kind : ChainRole → ChainKind
  | .policy => .blocks
  | .ports _ => .ports
  | .peers _ => .peers

/-- A policy puts rules into the chains of a direction. -/
def MultiNetworkPolicy.Renders (p : MultiNetworkPolicy) (d : Direction) : Prop :=
  p.isFor d = true ∧ p.rulesIn d ≠ []

instance (p : MultiNetworkPolicy) (d : Direction) : Decidable (p.Renders d) :=
  inferInstanceAs (Decidable (_ ∧ _))

/-- Chains that rules are put into have the same name only when they are of the same kind. -/
def KindsApart (ps : List MultiNetworkPolicy) : Prop :=
  ∀ d d' : Direction, ∀ p ∈ ps, p.Renders d → ∀ p' ∈ ps, p'.Renders d' →
    ∀ role ∈ rolesBelow (p.rulesIn d).length, ∀ role' ∈ rolesBelow (p'.rulesIn d').length,
      chainNameOf d p role = chainNameOf d' p' role' → role.kind = role'.kind

instance (ps : List MultiNetworkPolicy) : Decidable (KindsApart ps) :=
  inferInstanceAs (Decidable (∀ d d' : Direction, ∀ p ∈ ps, p.Renders d → ∀ p' ∈ ps,
    p'.Renders d' → ∀ role ∈ rolesBelow (p.rulesIn d).length,
      ∀ role' ∈ rolesBelow (p'.rulesIn d').length,
        chainNameOf d p role = chainNameOf d' p' role' → role.kind = role'.kind))

section History

variable {bo : ByteOrder} {ps : List MultiNetworkPolicy} {k : Kernel}

/-- A rule of a chain after a run was there before it or is asked for by it. -/
theorem Drawn.synced {i : Input} {es : List Event} (hk : Drawn bo ps k) (hi : i.Within ps)
    (hr : Rendering bo i k es) {c : Str} {x : Rule} (hx : x ∈ synced k es filterTableName c) :
    ∃ i r, i.Within ps ∧ RunCall bo i r ∧ r.chain = c ∧ r.content = x := by
  rcases mem_synced hr.wf hx with hx | ⟨r, hmem, hcontent⟩
  · exact hk c x hx
  · obtain ⟨hmem, hc⟩ := mem_rulesOf_callsIn.1 hmem
    obtain ⟨action, force, isNew, he⟩ := mem_rulesOf.1 hmem
    exact ⟨i, r, hi, Render.calls_renderInput hr.exec hr.answers _ he, (Rule.inChain_iff.1 hc).2,
      hcontent⟩

/-- The rules of a history. -/
theorem Runs.drawn {last : Option Input} (hr : Runs bo (fun _ i _ _ => i.Within ps) k last) :
    Drawn bo ps k := by
  refine hr.invariant (I := fun k _ => Drawn bo ps k) ?_ ?_
  · intro k _ hempty c x hx
    rw [hempty.chainRules (by decide)] at hx
    cases hx
  · intro h i k last s wf hbo hs hi hk c x hx
    obtain ⟨es, hran⟩ := exists_ran wf hs
    rw [hran.chains _ (by decide)] at hx
    have hrendering := hran.toRendering
    rw [hbo] at hrendering
    exact hk.synced hi hrendering (List.mem_of_mem_filter hx)

/-- The rules in the middle of a run. -/
theorem Reached.drawn (hk : Reached bo ps k) : Drawn bo ps k := by
  cases hk with
  | ended hr => exact hr.drawn
  | flushed hr hbo hs hi =>
    intro c x hx
    obtain ⟨es, hexec, ⟨ops, hq⟩, -, -, -, -, hchain⟩ := commitRules_ok hr.wf hs
    rw [hchain _ (by decide)] at hx
    rw [hbo] at hexec
    exact hr.drawn.synced hi ⟨hr.wf, hexec, hq.answers⟩ hx

/-! ### The chains of a rule -/

variable {d : Direction} {p : MultiNetworkPolicy} {index : Nat}

/-- The rules of a chain of a policy's rule are rules that a policy has for a chain of that kind. -/
theorem Drawn.policyCall (hk : Drawn bo ps k) (hps : KindsApart ps) (hp : p ∈ ps)
    (hrenders : p.Renders d) {role : ChainRole} (hrole : role ∈ rolesBelow (p.rulesIn d).length)
    {x : Rule} (hx : x ∈ k.chainRules filterTableName (chainNameOf d p role)) :
    ∃ d' q r, PolicyCall bo d' q r ∧ r.content = x ∧
      ∀ role' ∈ rolesBelow (q.rulesIn d').length, r.chain = chainNameOf d' q role' →
        role'.kind = role.kind := by
  obtain ⟨i, r, hi, hcall, hc, hcontent⟩ := hk _ x hx
  have hbase : r.chain ∉ baseChainNames := by
    rw [hc]
    exact chainNameOf_not_base d p role
  obtain ⟨d', q, hq, hr⟩ := hcall.exists_policy hbase
  refine ⟨d', q.policy, r, hr, hcontent, fun role' hrole' hname => ?_⟩
  exact hps d' d q.policy (hi d' q hq) ⟨Input.isFor_of_mem_policiesIn hq, hr.rules_ne_nil⟩ p hp
    hrenders role' hrole' role hrole (hname.symm.trans hc)

/-- The rules in a ports chain are rules for ports. -/
theorem Drawn.ports (hk : Drawn bo ps k) (hps : KindsApart ps) (hp : p ∈ ps)
    (hrenders : p.Renders d) (hi : index < (p.rulesIn d).length) :
    ∀ r ∈ k.chainRules filterTableName (chainNameOf d p (.ports index)), PortsRule bo r := by
  intro x hx
  obtain ⟨d', q, r, hcall, rfl, hkind⟩ := hk.policyCall hps hp hrenders (mem_rolesBelow.2 hi) hx
  cases hcall with
  | policy hr _ => cases hkind .policy (mem_rolesBelow.2 trivial) hr.2
  | ports j hj hr hshape => exact hshape.content
  | peers j hj hr _ => cases hkind (.peers j) (mem_rolesBelow.2 hj) hr.2

/-- The rules in a peers chain are rules for peers. -/
theorem Drawn.peers (hk : Drawn bo ps k) (hps : KindsApart ps) (hp : p ∈ ps)
    (hrenders : p.Renders d) (hi : index < (p.rulesIn d).length) :
    ∀ r ∈ k.chainRules filterTableName (chainNameOf d p (.peers index)),
      ∃ peers, PeersRule bo peers r := by
  intro x hx
  obtain ⟨d', q, r, hcall, rfl, hkind⟩ := hk.policyCall hps hp hrenders (mem_rolesBelow.2 hi) hx
  cases hcall with
  | policy hr _ => cases hkind .policy (mem_rolesBelow.2 trivial) hr.2
  | ports j hj hr _ => cases hkind (.ports j) (mem_rolesBelow.2 hj) hr.2
  | peers j hj hr hshape => exact ⟨_, hshape.content⟩

end History

/-! ### The marks of a rule -/

section Block

variable {bo : ByteOrder} {k : Kernel} {pkt : Packet} {d : Direction} {p : MultiNetworkPolicy}
  {index : Nat} {call : Str → BitVec 32 → BitVec 32 × Verdict}

/-- The mark behind a peers chain, also when rules of several versions of a policy are in it. -/
theorem flow_peers_mark {rules : List Rule} (h : ∀ r ∈ rules, ∃ peers, PeersRule bo peers r)
    (m : BitVec 32) :
    (flow (tableMachine bo k pkt filterTableName) call rules m).1 =
      if firstPeer bo k pkt rules = some true then m ||| peerRuleMark else m := by
  unfold firstPeer
  induction rules generalizing m with
  | nil => rfl
  | cons r rs ih =>
    have hrs := ih fun x hx => h x (List.mem_cons_of_mem _ hx)
    obtain ⟨peers, hr⟩ := h r (List.mem_cons_self ..)
    rw [flow, List.find?_cons]
    cases hr with
    -- the rule for all peers does not return, but the mark is set once and for all
    | all _ hr =>
      rw [exec_allPeersRule hr, hr.isHit_eq]
      simp only [Option.map_some, hr.isDrop_eq, Bool.not_false, if_true]
      rw [hrs, BitVec.or_assoc, BitVec.or_self, ite_self]
    | peer hr =>
      rw [exec_peerRule hr]
      cases r.isHit bo k pkt with
      | false => exact hrs m
      | true => simp only [if_true, Option.map_some, hr.isDrop_eq, Bool.not_false]
    | except _ hr =>
      rw [exec_exceptRule hr]
      cases r.isHit bo k pkt with
      | false => exact hrs m
      | true => simp [hr.isDrop_eq]

/-- The mark behind the reset of a rule and its two chains. -/
def markBehind (bo : ByteOrder) (k : Kernel) (pkt : Packet) (d : Direction) (p : MultiNetworkPolicy)
    (index : Nat) (m : BitVec 32) : BitVec 32 :=
  (flow (tableMachine bo k pkt filterTableName)
    (ChainMachine.evalChain (tableMachine bo k pkt filterTableName) (jumpStackSize - 2))
    ((policyBlock bo d p index).take 3) m).1

/-- A block without its check. -/
theorem flow_take_policyBlock {v : RuleView}
    (hports : ∀ m, call (chainNameOf d p (.ports index)) m =
      (if v.ports then m ||| portRuleMark else m, .done))
    (hpeers : ∀ m, (call (chainNameOf d p (.peers index)) m).1 =
      if v.peers = some true then m ||| peerRuleMark else m) (m : BitVec 32) :
    (flow (tableMachine bo k pkt filterTableName) call ((policyBlock bo d p index).take 3) m).1 =
      v.mark m := by
  have hmark : v.mark m = if v.peers = some true then
      (if v.ports then (m &&& ~~~matchRuleMark) ||| portRuleMark else m &&& ~~~matchRuleMark) |||
        peerRuleMark
      else if v.ports then (m &&& ~~~matchRuleMark) ||| portRuleMark
      else m &&& ~~~matchRuleMark := by
    unfold RuleView.mark
    cases v.ports <;> by_cases hv : v.peers = some true <;> simp [hv]
  have hlast := hpeers
    (if v.ports then (m &&& ~~~matchRuleMark) ||| portRuleMark else m &&& ~~~matchRuleMark)
  rw [← hmark] at hlast
  unfold policyBlock Render.blockRules
  rw [List.take_succ_cons, flow, exec_markReset]
  simp only [List.take_succ_cons, List.take_zero, flow, exec_policyJump_ports,
    exec_policyJump_peers, hports]
  rw [← hlast]
  rcases call (chainNameOf d p (.peers index))
    (if v.ports then (m &&& ~~~matchRuleMark) ||| portRuleMark else m &&& ~~~matchRuleMark)
    with ⟨m', _ | _ | _⟩ <;> rfl

/-- The bits of the mark behind a rule. -/
theorem RuleView.mark_bits (v : RuleView) (m : BitVec 32) :
    (v.mark m &&& portRuleMark = portRuleMark ↔ v.ports = true) ∧
      (v.mark m &&& peerRuleMark = peerRuleMark ↔ v.peers = some true) := by
  have hport : v.mark m &&& portRuleMark = v.mark m &&& matchRuleMark &&& portRuleMark := by
    rw [BitVec.and_assoc]
    rfl
  have hpeer : v.mark m &&& peerRuleMark = v.mark m &&& matchRuleMark &&& peerRuleMark := by
    rw [BitVec.and_assoc]
    rfl
  rw [hport, hpeer, v.mark_and]
  by_cases hports : v.ports = true <;> by_cases hpeers : v.peers = some true <;>
    simp only [hports, hpeers, if_true, if_false, Bool.false_eq_true] <;> decide

end Block

/-- **Foreign bits and the marks of a rule.**  In every state of a history, a packet keeps the bits
of its mark that are not the daemon's on every path; and if no chain is shared by rules of different
kinds, the two marks behind the chains of a rule tell whether these chains matched. -/
theorem marks_framed {bo : ByteOrder} {ps : List MultiNetworkPolicy} {k : Kernel}
    (hk : Reached bo ps k) :
    (∀ (pkt : Packet) (c : Str) (depth : Nat) (m m' : BitVec 32),
      Visits (tableMachine bo k pkt filterTableName) depth (k.chainRules filterTableName c) m m' →
        SameForeign m m') ∧
    (KindsApart ps → ∀ (d : Direction), ∀ p ∈ ps, p.isFor d = true →
      ∀ index < (p.rulesIn d).length, ∀ (pkt : Packet) (m : BitVec 32),
        (markBehind bo k pkt d p index m &&& portRuleMark = portRuleMark ↔
          ∃ r ∈ k.chainRules filterTableName (chainNameOf d p (.ports index)),
            r.isHit bo k pkt = true) ∧
        (markBehind bo k pkt d p index m &&& peerRuleMark = peerRuleMark ↔
          firstPeer bo k pkt (k.chainRules filterTableName (chainNameOf d p (.peers index))) =
            some true)) := by
  have hdrawn := hk.drawn
  constructor
  · intro pkt c depth m m' hvisits
    -- every rule is one that some run asked for
    have hbody : ∀ c, ∀ r ∈ k.chainRules filterTableName c, ∀ m,
        SameForeign m ((tableMachine bo k pkt filterTableName).exec r m).1 := by
      intro c x hx m
      obtain ⟨i, r, -, hcall, -, rfl⟩ := hdrawn c x hx
      exact hcall.keepsForeign k pkt m
    exact hvisits.rel (P := SameForeign) (fun _ => rfl) (fun h₁ h₂ => h₁.trans h₂) hbody (hbody c)
  · intro hps d p hp hfor index hi pkt m
    have hrenders : p.Renders d := ⟨hfor, List.ne_nil_of_length_pos (by omega)⟩
    -- the mark behind the peers chain, before the check of the block
    have hbehind : markBehind bo k pkt d p index m = (ruleView bo k pkt d p index).mark m := by
      refine flow_take_policyBlock (fun m => ?_) (fun m => ?_) m
      · rw [show jumpStackSize - 2 = 13 + 1 from rfl, evalChain_succ]
        change ((flow _ _ (k.chainRules filterTableName (chainNameOf d p (.ports index))) m).1,
          (flow _ _ (k.chainRules filterTableName (chainNameOf d p (.ports index))) m).2.getD
            .done) = _
        rw [flow_ports (hdrawn.ports hps hp hrenders hi)]
        rfl
      · rw [show jumpStackSize - 2 = 13 + 1 from rfl, evalChain_succ]
        exact flow_peers_mark (hdrawn.peers hps hp hrenders hi) m
    obtain ⟨hport, hpeer⟩ := (ruleView bo k pkt d p index).mark_bits m
    rw [hbehind, hport, hpeer]
    refine ⟨?_, Iff.rfl⟩
    rw [ruleView, List.any_eq_true]

set_option maxRecDepth 100000 in
/-- The marks behind the rules of two policies. -/
theorem union_marks : ∃ s,
    commitRules Host.reliable unionInput (State.new Kernel.empty) = .ok () s ∧
    ∀ p ∈ unionInput.policyMap.policies, ∀ (pkt : Packet) (m : BitVec 32),
      (markBehind .little s.kernel pkt .ingress p 0 m &&& portRuleMark = portRuleMark ↔
        ∃ r ∈ s.kernel.chainRules filterTableName (chainNameOf .ingress p (.ports 0)),
          r.isHit .little s.kernel pkt = true) ∧
      (markBehind .little s.kernel pkt .ingress p 0 m &&& peerRuleMark = peerRuleMark ↔
        firstPeer .little s.kernel pkt
          (s.kernel.chainRules filterTableName (chainNameOf .ingress p (.peers 0))) =
            some true) := by
  have hrun : (committed Host.reliable unionInput Kernel.empty).isSome = true := by decide +kernel
  have hrules : ∀ p ∈ unionInput.policyMap.policies,
      p.isFor .ingress = true ∧ 0 < (p.rulesIn .ingress).length := by
    decide +kernel
  obtain ⟨s, hs⟩ := Option.isSome_iff_exists.1 hrun
  have hs := committed_eq_some hs
  have hreached : Reached .little unionInput.policyMap.policies s.kernel :=
    .flushed (.start .empty .empty) rfl hs fun _ _ hp => Input.mem_policies_of_mem_policiesIn hp
  exact ⟨s, hs, fun p hp pkt m => (marks_framed hreached).2 (by decide +kernel) .ingress p hp
    (hrules p hp).1 0 (hrules p hp).2 pkt m⟩

/-- A policy for ingress and one for egress that is named like the other one's ports chain. -/
example : KindsApart [ingressPolicy (str "a") isDNS1123Subdomain_a (str "net1") [⟨[], []⟩],
    { ingressPolicy (str "a-ports-0") isDNS1123Subdomain_aPorts (str "net1") [] with
      ingress := none, egress := some [⟨[], []⟩] }] := by
  decide +kernel

/-- A policy whose rule lets everything pass, and one that is named like its ports chain. -/
def nestedInput : Input :=
  podInput [str "net1"] ⟨[ingressPolicy (str "a") isDNS1123Subdomain_a (str "net1") [⟨[], []⟩],
    ingressPolicy (str "a-ports-0") isDNS1123Subdomain_aPorts (str "net1")
      [⟨[⟨some .tcp, some (.int 81), none⟩], []⟩]], by
      show [(str "default", str "a"), (str "default", str "a-ports-0")].Nodup
      decide⟩

set_option maxRecDepth 100000 in
/-- The second policy writes its chain into the ports chain of the first one: the mark that a
matching rule of this chain sets is reset again. -/
theorem nested_chain_resets_mark : ∃ s,
    commitRules Host.reliable nestedInput (State.new Kernel.empty) = .ok () s ∧
    ∃ p ∈ nestedInput.policyMap.policies,
      (∃ r ∈ s.kernel.chainRules filterTableName (chainNameOf .ingress p (.ports 0)),
        r.exprs = .counter :: setMark .little portRuleMark ∧
        r.isHit .little s.kernel (tcpPacket (str "net1") [10, 1, 0, 1]) = true) ∧
      ¬ markBehind .little s.kernel (tcpPacket (str "net1") [10, 1, 0, 1]) .ingress p 0 0 &&&
        portRuleMark = portRuleMark := by
  have hrun : (committed Host.reliable nestedInput Kernel.empty).any (fun s =>
      decide (∃ p ∈ nestedInput.policyMap.policies,
        (∃ r ∈ s.kernel.chainRules filterTableName (chainNameOf .ingress p (.ports 0)),
          r.exprs = .counter :: setMark .little portRuleMark ∧
          r.isHit .little s.kernel (tcpPacket (str "net1") [10, 1, 0, 1]) = true) ∧
        ¬ markBehind .little s.kernel (tcpPacket (str "net1") [10, 1, 0, 1]) .ingress p 0 0 &&&
          portRuleMark = portRuleMark)) = true := by
    decide +kernel
  obtain ⟨s, hs, hmark⟩ := (Option.any_eq_true _ _).1 hrun
  exact ⟨s, committed_eq_some hs, of_decide_eq_true hmark⟩

end MultiNetPolicy
