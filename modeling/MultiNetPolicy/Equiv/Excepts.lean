import MultiNetPolicy.Equiv.Installed

/-!
# Exceptions of IP blocks

An `except` is rendered as a rule that drops at once, in front of the other peers, rules and
policies.  So it can take away what another peer allows.

* `allowed_passes_iff`: which of the packets that some peer allows pass.  The condition is one on
  the packet and on the policies, by way of the elements that the renderer makes of them
  (`Input.setMeaning`; for plain policies these are what the policies list).
-/

namespace MultiNetPolicy

open ByteString ChainMachine

/-- Some rule of a policy for the interface of a packet matches it by its ports, and by a peer on
its own: every peer when the rule lists none, a selector that stands for the address, or an IP block
that has it and does not except it. -/
def Input.PeerAllows (i : Input) (pkt : Packet) (d : Direction) : Prop :=
  ∃ p ∈ i.policiesIn d, p.Targets i.podInfo pkt d ∧ ∃ rule ∈ p.policy.rulesIn d,
    portsAdmit rule.ports pkt.destination ∧ (rule.peers = [] ∨ ∃ a, pkt.peer d = some a ∧
      ∃ peer ∈ rule.peers, peer.answer i.deps i.sortedInfo p.policyNetworks a = some true)

instance (i : Input) (pkt : Packet) (d : Direction) : Decidable (i.PeerAllows pkt d) :=
  inferInstanceAs (Decidable (∃ p ∈ i.policiesIn d, p.Targets i.podInfo pkt d ∧
    ∃ rule ∈ p.policy.rulesIn d, portsAdmit rule.ports pkt.destination ∧ (rule.peers = [] ∨
      ∃ a, pkt.peer d = some a ∧ ∃ peer ∈ rule.peers,
        peer.answer i.deps i.sortedInfo p.policyNetworks a = some true)))

/-- What allows a packet is a policy. -/
theorem Input.PeerAllows.ne_nil {i : Input} {pkt : Packet} {d : Direction}
    (h : i.PeerAllows pkt d) :
    i.policiesIn d ≠ [] := by
  obtain ⟨p, hp, -⟩ := h
  exact List.ne_nil_of_mem hp

/-- **An `except` counts when it is met first.**  After a first run, a packet that some peer allows
is not dropped exactly when the common rules accept it, or it comes with both marks and the first
policy does not reset them, or some rule matches it by its ports and by the first of its peers that
speaks of the address, and in none of the rules evaluated before is this first peer an `except`. -/
theorem allowed_passes_iff {h : Host} {i : Input} {k : Kernel} {s : State} (wf : k.WF)
    (hk : k.ManagedEmpty) (hs : commitRules h i (State.new k) = .ok () s)
    (hnd : i.chainNames.Nodup) (hco : i.SetsCoincide h.byteOrder)
    (hindices : ∀ d, ∀ p ∈ i.policiesIn d, (p.policy.rulesIn d).length ≤ maxRuleIndex)
    (d : Direction) (pkt : Packet) (m : BitVec 32) :
    (i.PeerAllows pkt d →
        (evalChain h.byteOrder s.kernel pkt filterTableName d.entry m).2 ≠ .drop) ↔
      (i.PeerAllows pkt d → i.cfg.SetsAccept d pkt ∨ (BothMarks m ∧ FirstKeepsMarks i d pkt) ∨
        PassesRules (seenRules (i.setMeaning pkt d))) := by
  obtain ⟨es, hes⟩ := enforced_of_commit wf hk hs hnd hco
  refine imp_congr_right fun hallowed => ?_
  have hne := hallowed.ne_nil
  rw [(hes.rendered d).passes_iff, hes.commonAccepts_eq_sets, hes.views_eq_sets hnd hindices]
  simp only [decide_eq_true_eq, hne, false_or]

/-- The policy that lets 10.1.0.0/16 pass comes before the one that excepts it. -/
def exceptBehindInput : Input :=
  twoBlocksInput (str "10.1.0.0/16", []) (str "10.0.0.0/8", [str "10.1.0.0/16"])

set_option maxRecDepth 100000 in
/-- The packet that the first policy allows and the second excepts is not dropped. -/
theorem except_behind_is_not_met : ∃ s,
    commitRules Host.reliable exceptBehindInput (State.new Kernel.empty) = .ok () s ∧
    exceptBehindInput.PeerAllows (tcpPacket (str "net1") [10, 1, 0, 1]) .ingress ∧
    (evalChain .little s.kernel (tcpPacket (str "net1") [10, 1, 0, 1]) filterTableName
      ingressChain 0).2 ≠ .drop := by
  have hrun : (committed Host.reliable exceptBehindInput Kernel.empty).isSome = true := by
    decide +kernel
  have hallowed : exceptBehindInput.PeerAllows (tcpPacket (str "net1") [10, 1, 0, 1]) .ingress := by
    decide +kernel
  obtain ⟨s, hs⟩ := Option.isSome_iff_exists.1 hrun
  have hs := committed_eq_some hs
  have hpasses : PassesRules (seenRules (exceptBehindInput.setMeaning
      (tcpPacket (str "net1") [10, 1, 0, 1]) .ingress)) :=
    (passesRules_iff _).2 (by decide +kernel)
  exact ⟨s, hs, hallowed, (allowed_passes_iff .empty .empty hs (by decide +kernel)
    (by decide +kernel) (by decide +kernel) .ingress _ 0).2 (fun _ => .inr (.inr hpasses)) hallowed⟩

/-- The policy that excepts 10.1.0.0/16 comes before the one that lets it pass. -/
def exceptBeforeInput : Input :=
  twoBlocksInput (str "10.0.0.0/8", [str "10.1.0.0/16"]) (str "10.1.0.0/16", [])

set_option maxRecDepth 100000 in
/-- The rule of the second policy, which has no `except`, matches the packet by its ports and by its
peers, and the packet is dropped. -/
theorem except_drops_for_other_policies : ∃ s,
    commitRules Host.reliable exceptBeforeInput (State.new Kernel.empty) = .ok () s ∧
    exceptBeforeInput.chainNames.Nodup ∧
    exceptBeforeInput.PeerAllows (tcpPacket (str "net1") [10, 1, 0, 1]) .ingress ∧
    (∃ p ∈ exceptBeforeInput.policiesIn .ingress,
      p.Targets exceptBeforeInput.podInfo (tcpPacket (str "net1") [10, 1, 0, 1]) .ingress ∧
      (∀ rule ∈ p.policy.rulesIn .ingress, ∀ peer ∈ rule.peers, ∀ block ∈ peer.ipBlock,
        block.except = []) ∧
      SetsMark .little s.kernel (tcpPacket (str "net1") [10, 1, 0, 1]) 0
        (chainNameOf .ingress p.policy (.ports 0)) portRuleMark ∧
      SetsMark .little s.kernel (tcpPacket (str "net1") [10, 1, 0, 1]) 0
        (chainNameOf .ingress p.policy (.peers 0)) peerRuleMark) ∧
    (evalChain .little s.kernel (tcpPacket (str "net1") [10, 1, 0, 1]) filterTableName
      ingressChain 0).2 = .drop := by
  have hrun : (committed Host.reliable exceptBeforeInput Kernel.empty).any (fun s =>
      decide (exceptBeforeInput.chainNames.Nodup ∧
        exceptBeforeInput.PeerAllows (tcpPacket (str "net1") [10, 1, 0, 1]) .ingress ∧
        (∃ p ∈ exceptBeforeInput.policiesIn .ingress,
          p.Targets exceptBeforeInput.podInfo (tcpPacket (str "net1") [10, 1, 0, 1]) .ingress ∧
          (∀ rule ∈ p.policy.rulesIn .ingress, ∀ peer ∈ rule.peers, ∀ block ∈ peer.ipBlock,
            block.except = []) ∧
          SetsMark .little s.kernel (tcpPacket (str "net1") [10, 1, 0, 1]) 0
            (chainNameOf .ingress p.policy (.ports 0)) portRuleMark ∧
          SetsMark .little s.kernel (tcpPacket (str "net1") [10, 1, 0, 1]) 0
            (chainNameOf .ingress p.policy (.peers 0)) peerRuleMark) ∧
        (evalChain .little s.kernel (tcpPacket (str "net1") [10, 1, 0, 1]) filterTableName
          ingressChain 0).2 = .drop)) = true := by
    decide +kernel
  obtain ⟨s, hs, hdrop⟩ := (Option.any_eq_true _ _).1 hrun
  exact ⟨s, committed_eq_some hs, of_decide_eq_true hdrop⟩

end MultiNetPolicy
