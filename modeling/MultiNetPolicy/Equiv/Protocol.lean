import MultiNetPolicy.Equiv.Chains
import MultiNetPolicy.Equiv.Marks

/-!
# The mark protocol

What the chains of a direction do with a packet, from the innermost ones outwards.  The two marks
are the only thing that is handed from chain to chain.

The abstract side sees of a rule only how the packet fares in its two chains (`RuleView`), and of a
policy only whether one of its interface rules applies (`PolicyView`).  The first rule that decides
is the one that counts, whichever policy it is of.

* `flow_policyBlock`, `flow_policyRules`: a rule and a chain of a policy.
* `flow_policyPart`: the interface rules of a policy and the check behind them.
* `flow_midRules`: the policies of a direction.
-/

namespace MultiNetPolicy

open ByteString ChainMachine

/-! ### Views -/

/-- How a packet fares with a rule of a policy: whether a rule of the ports chain matches it, and
whether the first rule of the peers chain that matches it is one of a peer (`some true`) or of an
`except` (`some false`). -/
structure RuleView where
  ports : Bool
  peers : Option Bool
  deriving DecidableEq

/-- What a rule decides: `true` is to let the packet pass. -/
def RuleView.decision (v : RuleView) : Option Bool :=
  match v.peers with
  | some true => if v.ports then some true else none
  | some false => some false
  | none => none

/-- How a packet fares with a policy: whether an interface rule applies, and the rules. -/
structure PolicyView where
  taken : Bool
  rules : List RuleView
  deriving DecidableEq

/-- What a policy decides. -/
def PolicyView.decision (v : PolicyView) : Option Bool :=
  if v.taken then v.rules.findSome? RuleView.decision else none

/-- The policy is one that resets the marks. -/
def PolicyView.resets (v : PolicyView) : Bool := v.taken && !v.rules.isEmpty

/-- The verdict of a chain that decides. -/
def verdictOf : Bool → Verdict
  | true => .done
  | false => .drop

/-! ### The marks -/

/-- Both marks are set. -/
abbrev BothMarks (m : BitVec 32) : Prop := m &&& matchRuleMark = matchRuleMark

/-- The mark behind the two chains of a rule. -/
def RuleView.mark (v : RuleView) (m : BitVec 32) : BitVec 32 :=
  (m &&& ~~~matchRuleMark) ||| (if v.ports then portRuleMark else 0) |||
    (if v.peers = some true then peerRuleMark else 0)

theorem and_not_or_and (m a b mask : BitVec 32) :
    ((m &&& ~~~mask) ||| a ||| b) &&& mask = (a ||| b) &&& mask := by
  ext i hi
  simp only [BitVec.getElem_and, BitVec.getElem_not, BitVec.getElem_or]
  cases m[i] <;> cases mask[i] <;> simp

/-- The marks are those of this rule, whatever was there before. -/
theorem RuleView.mark_and (v : RuleView) (m : BitVec 32) : v.mark m &&& matchRuleMark =
    (if v.ports then portRuleMark else 0) |||
      (if v.peers = some true then peerRuleMark else 0) := by
  unfold RuleView.mark
  rw [and_not_or_and]
  split <;> split <;> decide

/-- Both marks are set when ports and peers match. -/
theorem RuleView.bothMarks_mark (v : RuleView) (m : BitVec 32) :
    BothMarks (v.mark m) ↔ v.ports = true ∧ v.peers = some true := by
  unfold BothMarks
  rw [v.mark_and]
  by_cases hports : v.ports = true <;> by_cases hpeers : v.peers = some true <;>
    simp only [hports, hpeers, if_true, if_false, Bool.false_eq_true] <;> decide

/-- A rule lets a packet pass by its ports and its peers. -/
theorem RuleView.decision_eq_some_true {v : RuleView} :
    v.decision = some true ↔ v.ports = true ∧ v.peers = some true := by
  obtain ⟨ports, peers⟩ := v
  cases ports <;> rcases peers with _ | _ | _ <;> simp [RuleView.decision]

/-- A rule drops a packet by an exception, whatever its ports. -/
theorem RuleView.decision_eq_some_false {v : RuleView} :
    v.decision = some false ↔ v.peers = some false := by
  obtain ⟨ports, peers⟩ := v
  cases ports <;> rcases peers with _ | _ | _ <;> simp [RuleView.decision]

/-! ### Ports, peers and common chains -/

section Inner

variable {bo : ByteOrder} {k : Kernel} {pkt : Packet} {rules : List Rule}
  {call : Str → BitVec 32 → BitVec 32 × Verdict}

/-- The rule drops. -/
def Rule.isDrop (r : Rule) : Bool := r.exprs.getLast? == some (.verdict .drop [])

/-- Whether a rule matches, and what the first one that does is for. -/
def firstPeer (bo : ByteOrder) (k : Kernel) (pkt : Packet) (rules : List Rule) : Option Bool :=
  (rules.find? fun r => r.isHit bo k pkt).map fun r => !r.isDrop

/-- What a peers chain does. -/
def peersResult (peers : Option Bool) (m : BitVec 32) : BitVec 32 × Verdict :=
  match peers with
  | some true => (m ||| peerRuleMark, .done)
  | some false => (m, .drop)
  | none => (m, .done)

theorem PeerRule.isDrop_eq {r : Rule} (hr : PeerRule bo r) : r.isDrop = false := by
  obtain ⟨g, -, hexprs⟩ := hr
  unfold Rule.isDrop
  rw [hexprs, List.getLast?_append_of_ne_nil _ (by simp)]
  rfl

theorem AllPeersRule.isDrop_eq {r : Rule} (hr : AllPeersRule bo r) : r.isDrop = false := by
  unfold Rule.isDrop
  rw [hr]
  rfl

theorem ExceptRule.isDrop_eq {r : Rule} (hr : ExceptRule r) : r.isDrop = true := by
  obtain ⟨g, -, hexprs⟩ := hr
  unfold Rule.isDrop
  rw [hexprs, List.getLast?_append_of_ne_nil _ (by simp)]
  rfl

theorem AllPeersRule.isHit_eq {r : Rule} (hr : AllPeersRule bo r) : r.isHit bo k pkt = true := by
  have hexprs : r.exprs = [.counter] ++ setMark bo peerRuleMark := hr
  unfold Rule.isHit
  rw [Rule.guards_eq rfl rfl hexprs]
  rfl

/-- **A ports chain** sets its mark when a rule matches. -/
theorem flow_ports (h : ∀ r ∈ rules, PortsRule bo r) (m : BitVec 32) :
    flow (tableMachine bo k pkt filterTableName) call rules m =
      (if rules.any (Rule.isHit bo k pkt) then m ||| portRuleMark else m, none) :=
  flow_of_next (f := fun m => m ||| portRuleMark)
    (fun s => by rw [BitVec.or_assoc, BitVec.or_self])
    (fun r hr s => exec_portsRule (h r hr) s) m

/-- A common chain accepts when a rule matches. -/
theorem flow_common (h : ∀ r ∈ rules, AcceptRule r) (m : BitVec 32) :
    flow (tableMachine bo k pkt filterTableName) call rules m =
      (m, if rules.any (Rule.isHit bo k pkt) then some .accept else none) := by
  have hflow := @flow_of_first _ _ _ (tableMachine bo k pkt filterTableName) call rules
    (Rule.isHit bo k pkt) (fun _ m => (m, .accept)) (fun r hr s => by
      rw [exec_acceptRule (h r hr)]
      split <;> rfl) m
  rw [hflow]
  cases hfind : rules.find? (Rule.isHit bo k pkt) with
  | none =>
    rw [List.find?_eq_none] at hfind
    rw [List.any_eq_false.2 hfind]
    rfl
  | some r =>
    have hany : rules.any (Rule.isHit bo k pkt) = true :=
      List.any_eq_true.2 ⟨r, List.mem_of_find?_eq_some hfind, List.find?_some hfind⟩
    rw [hany]
    rfl

/-- A peers chain without drops. -/
theorem flow_peers_of_not_drop (h : ∀ r ∈ rules, PeerRule bo r ∨ AllPeersRule bo r)
    (m : BitVec 32) :
    ∃ o, (o = none ∨ o = some .done) ∧
      flow (tableMachine bo k pkt filterTableName) call rules m =
        (if rules.any (Rule.isHit bo k pkt) then m ||| peerRuleMark else m, o) := by
  induction rules generalizing m with
  | nil => exact ⟨none, .inl rfl, rfl⟩
  | cons r rs ih =>
    have hrs := ih fun x hx => h x (List.mem_cons_of_mem _ hx)
    rcases h r (List.mem_cons_self ..) with hr | hr
    · rw [flow, exec_peerRule hr, List.any_cons]
      cases r.isHit bo k pkt with
      | false => exact hrs m
      | true => exact ⟨some .done, .inr rfl, rfl⟩
    · obtain ⟨o, ho, hflow⟩ := hrs (m ||| peerRuleMark)
      refine ⟨o, ho, ?_⟩
      rw [flow, exec_allPeersRule hr, List.any_cons, hr.isHit_eq, Bool.true_or, if_pos rfl]
      refine hflow.trans ?_
      rw [BitVec.or_assoc, BitVec.or_self, ite_self]

/-- **A peers chain**: the first rule that matches decides. -/
theorem flow_peers {peers : List MultiNetworkPolicyPeer} (h : ∀ r ∈ rules, PeersRule bo peers r)
    (m : BitVec 32) :
    ((flow (tableMachine bo k pkt filterTableName) call rules m).1,
      (flow (tableMachine bo k pkt filterTableName) call rules m).2.getD .done) =
      peersResult (firstPeer bo k pkt rules) m := by
  by_cases hpeers : peers = []
  · -- without peers there is no `except`
    have hshape : ∀ r ∈ rules, PeerRule bo r ∨ AllPeersRule bo r := by
      intro r hr
      cases h r hr with
      | all _ hall => exact .inr hall
      | peer hpeer => exact .inl hpeer
      | except hex _ =>
        obtain ⟨peer, hmem, -⟩ := hex
        rw [hpeers] at hmem
        cases hmem
    obtain ⟨o, ho, hflow⟩ := @flow_peers_of_not_drop bo k pkt rules call hshape m
    -- a peer rule and the rule for all peers only set the mark
    have hdone : o.getD .done = .done := by
      rcases ho with rfl | rfl <;> rfl
    rw [hflow, hdone]
    unfold firstPeer
    cases hfind : rules.find? (Rule.isHit bo k pkt) with
    | none =>
      rw [List.find?_eq_none] at hfind
      rw [List.any_eq_false.2 hfind]
      rfl
    | some r =>
      have hmem := List.mem_of_find?_eq_some hfind
      have hany : rules.any (Rule.isHit bo k pkt) = true :=
        List.any_eq_true.2 ⟨r, hmem, List.find?_some hfind⟩
      have hdrop : r.isDrop = false := by
        rcases hshape r hmem with hr | hr
        · exact hr.isDrop_eq
        · exact hr.isDrop_eq
      rw [hany, Option.map_some, hdrop]
      rfl
  -- with peers the first hit decides: a peer marks and returns, an `except` drops
  · have hflow := @flow_of_first _ _ _ (tableMachine bo k pkt filterTableName) call rules
      (Rule.isHit bo k pkt)
      (fun r m => if r.isDrop then (m, .drop) else (m ||| peerRuleMark, .done)) (fun r hr s => by
        cases h r hr with
        | all hnone _ => exact absurd hnone hpeers
        | peer hpeer =>
          rw [exec_peerRule hpeer, hpeer.isDrop_eq]
          rfl
        | except _ hex =>
          rw [exec_exceptRule hex, hex.isDrop_eq]
          split <;> rfl) m
    rw [hflow]
    unfold firstPeer
    cases rules.find? (Rule.isHit bo k pkt) with
    | none => rfl
    | some r =>
      rw [Option.map_some]
      cases hdrop : r.isDrop with
      | false =>
        simp only [hdrop]
        rfl
      | true =>
        simp only [hdrop]
        rfl

end Inner

/-! ### A rule and a chain of a policy -/

section Policy

variable {bo : ByteOrder} {k : Kernel} {pkt : Packet} {d : Direction} {p : MultiNetworkPolicy}
  {call : Str → BitVec 32 → BitVec 32 × Verdict}

/-- Calling the two chains of a rule does what the view says. -/
structure RuleView.Answers (v : RuleView) (call : Str → BitVec 32 → BitVec 32 × Verdict)
    (d : Direction) (p : MultiNetworkPolicy) (index : Nat) : Prop where
  ports : ∀ m, call (chainNameOf d p (.ports index)) m =
    (if v.ports then m ||| portRuleMark else m, .done)
  peers : ∀ m, call (chainNameOf d p (.peers index)) m = peersResult v.peers m

theorem exec_policyJump_ports (index : Nat) (m : BitVec 32) :
    (tableMachine bo k pkt filterTableName).exec
      (Render.policyJumpRule (policyChainFullName d.entry p) (policyChainOf d.entry p)
        (policyNamespacedName p) (Render.portsChainOf (policyChainFullName d.entry p) index)) m =
      (m, .jump (chainNameOf d p (.ports index))) := by
  rw [← portsChainOf_name]
  exact exec_jump m rfl

theorem exec_policyJump_peers (index : Nat) (m : BitVec 32) :
    (tableMachine bo k pkt filterTableName).exec
      (Render.policyJumpRule (policyChainFullName d.entry p) (policyChainOf d.entry p)
        (policyNamespacedName p) (Render.peersChainOf (policyChainFullName d.entry p) index)) m =
      (m, .jump (chainNameOf d p (.peers index))) := by
  rw [← peersChainOf_name]
  exact exec_jump m rfl

/-- **A block of a policy chain**, for what the chains of the rule answer. -/
theorem flow_policyBlock {v : RuleView} {index : Nat} (h : v.Answers call d p index)
    (m : BitVec 32) :
    flow (tableMachine bo k pkt filterTableName) call (policyBlock bo d p index) m =
      (v.mark m, v.decision.map verdictOf) := by
  -- the check returns when both marks are set
  have hcheck : ∀ m, (tableMachine bo k pkt filterTableName).exec
      (Render.markCheckRule bo (policyChainFullName d.entry p) (policyChainOf d.entry p)
        (policyNamespacedName p) index) m = (m, if BothMarks m then .ret else .next) :=
    fun m => evalExprs_markCheck _ m
  unfold policyBlock Render.blockRules
  rw [flow, exec_markReset]
  simp only [flow, exec_policyJump_ports, h.ports, exec_policyJump_peers, h.peers]
  have hboth := v.bothMarks_mark m
  obtain ⟨ports, peers⟩ := v
  rcases peers with _ | _ | _
  · -- no peer matches: the check fails
    have hmark : RuleView.mark ⟨ports, none⟩ m =
        if ports then (m &&& ~~~matchRuleMark) ||| portRuleMark else m &&& ~~~matchRuleMark := by
      cases ports <;> simp [RuleView.mark]
    rw [hmark] at hboth ⊢
    simp only [peersResult, hcheck, hboth, RuleView.decision, reduceCtorEq, and_false, if_false,
      Option.map_none]
  · -- an `except` drops
    cases ports <;> simp [RuleView.mark, peersResult, RuleView.decision, verdictOf]
  · -- a peer matches: the check is passed if a port does
    have hmark : RuleView.mark ⟨ports, some true⟩ m =
        (if ports then (m &&& ~~~matchRuleMark) ||| portRuleMark else m &&& ~~~matchRuleMark) |||
          peerRuleMark := by
      cases ports <;> simp [RuleView.mark]
    rw [hmark] at hboth ⊢
    simp only [peersResult, hcheck, hboth, RuleView.decision, and_true]
    cases ports <;> rfl

/-- The mark behind some rules of a policy, evaluated up to the first one that decides. -/
def markAfter : List RuleView → BitVec 32 → BitVec 32
  | [], m => m
  | v :: vs, m => if v.decision.isSome then v.mark m else markAfter vs (v.mark m)

/-- **A policy chain**: the first block that decides. -/
theorem flow_policyRules {views : List RuleView}
    (h : List.Forall₂ (fun v index => v.Answers call d p index) views
      (List.range (p.rulesIn d).length)) (m : BitVec 32) :
    flow (tableMachine bo k pkt filterTableName) call (policyRules bo d p) m =
      (markAfter views m, (views.findSome? RuleView.decision).map verdictOf) := by
  rw [policyRules_eq]
  generalize List.range (p.rulesIn d).length = indices at h
  induction h generalizing m with
  | nil => rfl
  | @cons v index vs indices hv _ ih =>
    rw [List.flatMap_cons, flow_append, flow_policyBlock hv, List.findSome?_cons, markAfter]
    cases v.decision with
    | none => exact ih (v.mark m)
    | some b => rfl

/-- A policy that lets the packet pass leaves both marks, one that does not decide leaves at most
one of them. -/
theorem bothMarks_markAfter {views : List RuleView} (hne : views ≠ []) (m : BitVec 32) :
    (views.findSome? RuleView.decision = some true → BothMarks (markAfter views m)) ∧
      (views.findSome? RuleView.decision = none → ¬ BothMarks (markAfter views m)) := by
  induction views generalizing m with
  | nil => exact absurd rfl hne
  | cons v vs ih =>
    have hboth := v.bothMarks_mark m
    rw [← RuleView.decision_eq_some_true] at hboth
    rw [List.findSome?_cons, markAfter]
    cases hdec : v.decision with
    | some b =>
      simp only [Option.isSome_some, if_true, reduceCtorEq, false_imp_iff, and_true]
      rw [hdec] at hboth
      exact hboth.2
    | none =>
      simp only [Option.isSome_none, Bool.false_eq_true, if_false]
      by_cases hvs : vs = []
      · subst hvs
        rw [hdec] at hboth
        refine ⟨fun h => (by cases h), fun _ hm => ?_⟩
        cases hboth.1 hm
      · exact ih hvs (v.mark m)

/-! ### Marks that are not the daemon's -/

/-- Two marks agree on the bits that are not the daemon's. -/
abbrev SameForeign (m m' : BitVec 32) : Prop := m &&& ~~~matchRuleMark = m' &&& ~~~matchRuleMark

theorem RuleView.mark_sameForeign (v : RuleView) (m : BitVec 32) : SameForeign (v.mark m) m := by
  have hmasked : ∀ a b mask : BitVec 32, a &&& ~~~mask = 0 → b &&& ~~~mask = 0 →
      ((m &&& ~~~mask) ||| a ||| b) &&& ~~~mask = m &&& ~~~mask := by
    intro a b mask ha hb
    rw [BitVec.and_or_distrib_right, BitVec.and_or_distrib_right, ha, hb, BitVec.and_assoc,
      BitVec.and_self]
    simp
  refine hmasked _ _ _ ?_ ?_
  · cases v.ports <;> decide
  · split <;> decide

theorem RuleView.mark_congr (v : RuleView) {m m' : BitVec 32} (h : SameForeign m m') :
    v.mark m = v.mark m' := by
  unfold RuleView.mark
  rw [h]

/-- A policy chain changes the daemon's bits only. -/
theorem markAfter_sameForeign (views : List RuleView) (m : BitVec 32) :
    SameForeign (markAfter views m) m := by
  induction views generalizing m with
  | nil => rfl
  | cons v vs ih =>
    rw [markAfter]
    split
    · exact v.mark_sameForeign m
    · exact (ih (v.mark m)).trans (v.mark_sameForeign m)

/-- A policy chain with a rule forgets the marks a packet came with. -/
theorem markAfter_congr {views : List RuleView} (hne : views ≠ []) {m m' : BitVec 32}
    (h : SameForeign m m') : markAfter views m = markAfter views m' := by
  cases views with
  | nil => exact absurd rfl hne
  | cons v vs => rw [markAfter, markAfter, v.mark_congr h]

/-- Going through a policy chain twice is going through it once. -/
theorem markAfter_markAfter (views : List RuleView) (m : BitVec 32) :
    markAfter views (markAfter views m) = markAfter views m := by
  by_cases hne : views = []
  · rw [hne]
    rfl
  · exact markAfter_congr hne (markAfter_sameForeign views m)

end Policy

/-! ### The policies of a direction -/

/-- The interface name of a packet that a direction looks at. -/
def Packet.ifaceName (pkt : Packet) : Direction → Str
  | .ingress => pkt.iifname
  | .egress => pkt.oifname

/-- The packet is on an interface. -/
def Packet.isOn (pkt : Packet) (d : Direction) (e : InterfaceInfo) : Bool :=
  cmpMatches .eq (pkt.ifaceName d) (ifname e.interfaceName)

section Entry

variable {bo : ByteOrder} {k : Kernel} {pkt : Packet} {d : Direction} {podInfo : PodInfo}
  {p : InternalPolicy} {call : Str → BitVec 32 → BitVec 32 × Verdict}

/-- An interface rule jumps for the packets of its interface. -/
theorem exec_podInterfaceRule (target : Chain) (policy : MultiNetworkPolicy) (e : InterfaceInfo)
    (m : BitVec 32) : (tableMachine bo k pkt filterTableName).exec
      (Render.podInterfaceRule d.entryChain target policy e) m =
      (m, if pkt.isOn d e then .jump target.name else .next) := by
  have hguard : ∀ key : MetaKey, pkt.metaValue bo m key = some (pkt.ifaceName d) →
      evalExprs bo k pkt filterTableName [.metaExpr key false 1,
        .cmp .eq 1 (ifname e.interfaceName), .counter, .verdict .jump target.name]
          (fun _ => none) m =
        (m, if pkt.isOn d e then .jump target.name else .next) := by
    intro key hkey
    rw [evalExprs]
    simp only [evalExpr, hkey, ExprResult.load]
    rw [evalExprs]
    simp only [evalExpr, Function.update_self, Option.any_some, ExprResult.guard]
    rw [show cmpMatches .eq (pkt.ifaceName d) (ifname e.interfaceName) = pkt.isOn d e from rfl]
    cases pkt.isOn d e <;> rfl
  cases d with
  | ingress => exact hguard .iifname rfl
  | egress => exact hguard .oifname rfl

/-- The interface rules of a policy apply when the view says so, and calling its chain then does
what the view says. -/
structure PolicyView.Answers (v : PolicyView) (call : Str → BitVec 32 → BitVec 32 × Verdict)
    (pkt : Packet) (d : Direction) (podInfo : PodInfo) (p : InternalPolicy) : Prop where
  taken : v.taken = (p.interfaces podInfo).any (pkt.isOn d)
  chain : v.taken = true → ∀ m, call (chainNameOf d p.policy .policy) m = (markAfter v.rules m,
    ((v.rules.findSome? RuleView.decision).map verdictOf).getD .done)

/-- The mark behind the interface rules of a policy. -/
def PolicyView.mark (v : PolicyView) (m : BitVec 32) : BitVec 32 :=
  if v.taken then markAfter v.rules m else m

/-- The interface rules of one policy. -/
theorem flow_jumpRules {v : PolicyView} (h : v.Answers call pkt d podInfo p) (m : BitVec 32) :
    flow (tableMachine bo k pkt filterTableName) call (jumpRules d podInfo p) m =
      (v.mark m, if v.decision = some false then some .drop else none) := by
  obtain ⟨htaken, hchain⟩ := h
  unfold jumpRules PolicyView.mark PolicyView.decision
  rw [htaken] at hchain ⊢
  clear htaken
  generalize p.interfaces podInfo = interfaces at hchain ⊢
  -- interface by interface; the packet may be on several of them
  induction interfaces generalizing m with
  | nil => rfl
  | cons e es ih =>
    rw [List.any_cons] at hchain
    have hrest := fun m => ih m fun hany => hchain (by rw [hany, Bool.or_true])
    rw [List.map_cons, flow, exec_podInterfaceRule, List.any_cons]
    cases hon : pkt.isOn d e with
    | false => exact hrest m
    | true =>
      simp only [if_true, Bool.true_or]
      rw [show (policyChainOf d.entry p.policy).name = chainNameOf d p.policy .policy from rfl,
        hchain (by rw [hon, Bool.true_or])]
      rcases hdec : v.rules.findSome? RuleView.decision with _ | _ | _
      · -- not decided: the chain may be evaluated once more
        simp only [Option.map_none, Option.getD_none]
        rw [hrest, hdec, markAfter_markAfter, ite_self]
        split <;> rfl
      · rfl
      · simp only [Option.map_some, Option.getD_some, verdictOf]
        rw [hrest, hdec, markAfter_markAfter, ite_self]
        split <;> rfl

/-- **One policy**: its interface rules and its check. -/
theorem flow_policyPart {v : PolicyView} (h : v.Answers call pkt d podInfo p) (m : BitVec 32) :
    flow (tableMachine bo k pkt filterTableName) call
      (jumpRules d podInfo p ++ [checkRule bo d p]) m =
      (v.mark m, if v.decision = some false then some .drop
        else if BothMarks (v.mark m) then some .done else none) := by
  have hcheck : ∀ m, (tableMachine bo k pkt filterTableName).exec (checkRule bo d p) m =
      (m, if BothMarks m then .ret else .next) := fun m => evalExprs_markCheck _ m
  rw [flow_append, flow_jumpRules h]
  by_cases hdrop : v.decision = some false
  · simp only [hdrop, if_true]
  · simp only [hdrop, if_false, flow, hcheck]
    by_cases hboth : BothMarks (v.mark m)
    · rw [if_pos hboth, if_pos hboth]
    · rw [if_neg hboth, if_neg hboth]

/-- A policy that resets nothing decides nothing. -/
theorem PolicyView.mark_of_resets_eq_false {v : PolicyView} (h : v.resets = false) (m : BitVec 32) :
    v.mark m = m ∧ v.decision = none := by
  obtain ⟨taken, rules⟩ := v
  cases taken with
  | false => exact ⟨rfl, rfl⟩
  | true =>
    cases rules with
    | nil => exact ⟨rfl, rfl⟩
    | cons v vs => cases h

/-- The marks behind a policy tell what it decided. -/
theorem PolicyView.bothMarks_mark {v : PolicyView} (h : v.resets = true) (m : BitVec 32) :
    (v.decision = some true → BothMarks (v.mark m)) ∧
      (v.decision = none → ¬ BothMarks (v.mark m)) := by
  unfold PolicyView.resets at h
  rw [Bool.and_eq_true, Bool.not_eq_true', List.isEmpty_eq_false_iff] at h
  unfold PolicyView.decision PolicyView.mark
  rw [h.1, if_pos rfl, if_pos rfl]
  exact bothMarks_markAfter h.2 m

/-- **The policies of a direction**: the first one that decides counts, unless the packet comes with
both marks and meets a check before a reset. -/
theorem flow_midRules {views : List PolicyView} {policies : List InternalPolicy}
    (h : List.Forall₂ (fun v p => v.Answers call pkt d podInfo p) views policies) (m : BitVec 32) :
    (flow (tableMachine bo k pkt filterTableName) call (midRules bo d podInfo policies) m).2 =
      if BothMarks m ∧ views.head?.any (fun v => !v.resets) = true then some .done
      else (views.findSome? PolicyView.decision).map verdictOf := by
  unfold midRules
  induction h generalizing m with
  | nil =>
    rw [if_neg]
    · rfl
    · rintro ⟨-, hnone⟩
      cases hnone
  | @cons v p vs policies hv _ ih =>
    rw [List.flatMap_cons, flow_append, flow_policyPart hv, List.head?_cons, Option.any_some,
      List.findSome?_cons]
    cases hres : v.resets with
    | false =>
      -- no reset: the marks that came in count as if this policy had set them
      obtain ⟨hmark, hdec⟩ := v.mark_of_resets_eq_false hres m
      rw [hmark, hdec]
      simp only [Bool.not_false, and_true, reduceCtorEq, if_false]
      by_cases hboth : BothMarks m
      · rw [if_pos hboth, if_pos hboth]
      · rw [if_neg hboth, if_neg hboth, ih, if_neg fun hc => hboth hc.1]
    | true =>
      -- a reset forgets the marks that came in, so that they do not matter further on
      obtain ⟨htrue, hnone⟩ := v.bothMarks_mark hres m
      simp only [Bool.not_true, Bool.false_eq_true, and_false, if_false]
      rcases hdec : v.decision with _ | _ | _
      · have hnot := hnone hdec
        simp only [reduceCtorEq, if_false]
        rw [if_neg hnot, ih, if_neg fun hc => hnot hc.1]
      · rw [if_pos rfl]
        rfl
      · rw [if_neg (by simp), if_pos (htrue hdec)]
        rfl

end Entry

end MultiNetPolicy
