import MultiNetPolicy.Equiv.Fresh

/-!
# What the policies let pass

The verdicts of an entry chain after a first run, in terms of the policies.

* `union_semantics`: without `except`, a packet passes exactly when some rule of some policy for its
  interface matches it by its ports and by its peers.
* `Rendered.passes_iff`: in general an `except` drops; it counts when it is met before such a rule.
-/

namespace MultiNetPolicy

open ByteString ChainMachine

/-! ### The first decision -/

/-- A list decides in favour when a favourable element has no adverse one before it. -/
theorem findSome?_eq_some_true_iff {α : Type} {f : α → Option Bool} {l : List α} :
    l.findSome? f = some true ↔
      ∃ l₁ a l₂, l = l₁ ++ a :: l₂ ∧ f a = some true ∧ ∀ x ∈ l₁, f x ≠ some false := by
  constructor
  · intro h
    obtain ⟨l₁, a, l₂, hl, ha, hnone⟩ := List.findSome?_eq_some_iff.1 h
    refine ⟨l₁, a, l₂, hl, ha, fun x hx => ?_⟩
    rw [hnone x hx]
    simp
  · rintro ⟨l₁, a, l₂, rfl, ha, hl₁⟩
    induction l₁ with
    | nil => rw [List.nil_append, List.findSome?_cons, ha]
    | cons x xs ih =>
      have hxs := ih fun y hy => hl₁ y (List.mem_cons_of_mem _ hy)
      have hx := hl₁ x (List.mem_cons_self ..)
      rw [List.cons_append, List.findSome?_cons]
      rcases hfx : f x with _ | _ | _
      · exact hxs
      · exact absurd hfx hx
      · rfl

/-- The rules of the policies that apply, in the order in which they are evaluated. -/
def seenRules (views : List PolicyView) : List RuleView :=
  (views.filter PolicyView.taken).flatMap PolicyView.rules

/-- The first rule that decides. -/
theorem findSome?_seenRules (views : List PolicyView) :
    views.findSome? PolicyView.decision = (seenRules views).findSome? RuleView.decision := by
  induction views with
  | nil => rfl
  | cons v vs ih =>
    unfold seenRules at ih ⊢
    rw [List.findSome?_cons, List.filter_cons]
    cases htaken : v.taken with
    | false =>
      have hdec : v.decision = none := by
        rw [PolicyView.decision, htaken]
        rfl
      rw [hdec]
      exact ih
    | true =>
      have hdec : v.decision = v.rules.findSome? RuleView.decision := by
        rw [PolicyView.decision, htaken]
        rfl
      rw [if_pos rfl, List.flatMap_cons, List.findSome?_append, ← ih, hdec]
      cases v.rules.findSome? RuleView.decision <;> rfl

/-- Some rule lets the packet pass, and no `except` is met before it. -/
def PassesRules (rules : List RuleView) : Prop :=
  ∃ before rule after, rules = before ++ rule :: after ∧
    (rule.ports = true ∧ rule.peers = some true) ∧ ∀ r ∈ before, r.peers ≠ some false

/-- A packet passes the rules when the first decision is for it. -/
theorem passesRules_iff (views : List PolicyView) :
    PassesRules (seenRules views) ↔ views.findSome? PolicyView.decision = some true := by
  rw [findSome?_seenRules, findSome?_eq_some_true_iff]
  unfold PassesRules
  simp only [RuleView.decision_eq_some_true, ne_eq, RuleView.decision_eq_some_false]

/-! ### Policies and packets -/

/-- The policy is for the interface of a packet. -/
def InternalPolicy.Targets (p : InternalPolicy) (podInfo : PodInfo) (pkt : Packet) (d : Direction) :
    Prop :=
  ∃ e ∈ podInfo.interfaces, pkt.isOn d e = true ∧ e.checkPolicyNetwork p.policyNetworks = true

instance (p : InternalPolicy) (podInfo : PodInfo) (pkt : Packet) (d : Direction) :
    Decidable (p.Targets podInfo pkt d) :=
  inferInstanceAs (Decidable (∃ e ∈ podInfo.interfaces, pkt.isOn d e = true ∧
    e.checkPolicyNetwork p.policyNetworks = true))

/-- A policy is for the interface of a packet. -/
theorem targets_iff {i : Input} {p : InternalPolicy} {pkt : Packet} {d : Direction} :
    p.Targets i.podInfo pkt d ↔ (p.interfaces i.sortedInfo).any (pkt.isOn d) = true := by
  unfold InternalPolicy.Targets InternalPolicy.interfaces Input.sortedInfo
  rw [List.any_eq_true]
  simp only [List.mem_filter, List.mem_insertionSort, and_assoc, and_comm]

section Rendered

variable {bo : ByteOrder} {i : Input} {k : Kernel} {pkt : Packet} {d : Direction} {m : BitVec 32}

/-- The first policy in the order of evaluation does not reset the marks. -/
def FirstKeepsMarks (i : Input) (d : Direction) (pkt : Packet) : Prop :=
  ∃ p ∈ (i.policiesIn d).head?, ¬ (p.Targets i.podInfo pkt d ∧ p.policy.rulesIn d ≠ [])

theorem firstKeepsMarks_iff :
    FirstKeepsMarks i d pkt ↔ (i.views bo k pkt d).head?.any (fun v => !v.resets) = true := by
  unfold FirstKeepsMarks Input.views
  rw [List.head?_map, Option.any_map, Option.any_eq_true]
  refine exists_congr fun p => and_congr Iff.rfl ?_
  rw [targets_iff, Bool.not_eq_true', PolicyView.resets, policyView,
    Bool.and_eq_false_iff, not_and_or]
  simp

/-- **Which packets pass**, whatever the marks they come with. -/
theorem Rendered.passes_iff (hk : Rendered bo i d k) :
    (evalChain bo k pkt filterTableName d.entry m).2 ≠ .drop ↔
      commonAccepts bo k pkt d = true ∨ i.policiesIn d = [] ∨
        (BothMarks m ∧ FirstKeepsMarks i d pkt) ∨ PassesRules (seenRules (i.views bo k pkt d)) := by
  have hviews : i.views bo k pkt d = [] ↔ i.policiesIn d = [] := List.map_eq_nil_iff
  rw [hk.verdict, passesRules_iff, @firstKeepsMarks_iff bo i k, ← hviews]
  unfold policiesVerdict
  by_cases hcommon : commonAccepts bo k pkt d = true
  · simp [hcommon]
  · rw [if_neg hcommon]
    by_cases hnil : i.views bo k pkt d = []
    · simp [hnil]
    · rw [if_neg hnil]
      by_cases hfirst : BothMarks m ∧ (i.views bo k pkt d).head?.any (fun v => !v.resets) = true
      · rw [if_pos hfirst]
        exact ⟨fun _ => .inr (.inr (.inl hfirst)), fun _ => by simp⟩
      · rw [if_neg hfirst]
        by_cases hdec : (i.views bo k pkt d).findSome? PolicyView.decision = some true
        · rw [if_pos hdec]
          exact ⟨fun _ => .inr (.inr (.inr hdec)), fun _ => by simp⟩
        · rw [if_neg hdec]
          refine ⟨fun h => absurd rfl h, ?_⟩
          rintro (h | h | h | h)
          · exact absurd h hcommon
          · exact absurd h hnil
          · exact absurd h hfirst
          · exact absurd h hdec

/-! ### Chains on their own -/

/-- A chain, evaluated on its own for a packet without the daemon's marks, sets a mark. -/
def SetsMark (bo : ByteOrder) (k : Kernel) (pkt : Packet) (m : BitVec 32) (c : Str)
    (bit : BitVec 32) : Prop :=
  (evalChain bo k pkt filterTableName c (m &&& ~~~matchRuleMark)).1 &&& bit = bit

instance (c : Str) (bit : BitVec 32) : Decidable (SetsMark bo k pkt m c bit) :=
  inferInstanceAs (Decidable (_ = bit))

theorem or_and_self (a b : BitVec 32) : (a ||| b) &&& b = b := by
  ext j hj
  simp only [BitVec.getElem_and, BitVec.getElem_or]
  cases a[j] <;> cases b[j] <;> rfl

theorem and_not_and_eq_zero {bit : BitVec 32} (hbit : ~~~matchRuleMark &&& bit = 0)
    (m : BitVec 32) : m &&& ~~~matchRuleMark &&& bit = 0 := by
  rw [BitVec.and_assoc, hbit]
  exact BitVec.and_zero

variable {p : InternalPolicy} {index : Nat}

/-- A ports chain sets the port mark when one of its rules matches. -/
theorem setsMark_ports_iff {c : Str} (h : ∀ r ∈ k.chainRules filterTableName c, PortsRule bo r) :
    SetsMark bo k pkt m c portRuleMark ↔
      (k.chainRules filterTableName c).any (Rule.isHit bo k pkt) = true := by
  have hflow : (evalChain bo k pkt filterTableName c (m &&& ~~~matchRuleMark)).1 =
      if (k.chainRules filterTableName c).any (Rule.isHit bo k pkt) then
        m &&& ~~~matchRuleMark ||| portRuleMark else m &&& ~~~matchRuleMark := by
    unfold evalChain jumpStackSize
    rw [ChainMachine.evalChain_succ]
    change (ChainMachine.flow _ _ (k.chainRules filterTableName c) _).1 = _
    rw [flow_ports h]
  unfold SetsMark
  rw [hflow]
  cases (k.chainRules filterTableName c).any (Rule.isHit bo k pkt) with
  | true => simp only [if_true, or_and_self]
  | false =>
    simp only [Bool.false_eq_true, if_false, iff_false]
    rw [and_not_and_eq_zero (by decide)]
    decide

/-- When a ports chain sets its mark. -/
theorem Rendered.setsMark_ports (hk : Rendered bo i d k) (hp : p ∈ i.policiesIn d)
    (hi : index < (p.policy.rulesIn d).length) :
    SetsMark bo k pkt m (chainNameOf d p.policy (.ports index)) portRuleMark ↔
      (ruleView bo k pkt d p.policy index).ports = true :=
  setsMark_ports_iff (hk.ports p hp index hi)

/-- When a peers chain sets its mark. -/
theorem Rendered.setsMark_peers (hk : Rendered bo i d k) (hp : p ∈ i.policiesIn d)
    (hi : index < (p.policy.rulesIn d).length) :
    SetsMark bo k pkt m (chainNameOf d p.policy (.peers index)) peerRuleMark ↔
      (ruleView bo k pkt d p.policy index).peers = some true := by
  have hzero : m &&& ~~~matchRuleMark &&& peerRuleMark ≠ peerRuleMark := by
    rw [and_not_and_eq_zero (by decide)]
    decide
  unfold SetsMark evalChain jumpStackSize
  rw [(hk.answers_rule hp hi 15).peers]
  rcases (ruleView bo k pkt d p.policy index).peers with _ | _ | _
  · simp only [peersResult, hzero, reduceCtorEq]
  · simp only [peersResult, hzero, Option.some.injEq, Bool.false_eq_true]
  · simp only [peersResult, or_and_self]

/-- Without `except` no peers chain drops. -/
theorem Rendered.peers_ne_some_false (hk : Rendered bo i d k) (hp : p ∈ i.policiesIn d)
    (hex : ¬ p.policy.hasExcept d) (hi : index < (p.policy.rulesIn d).length) :
    (ruleView bo k pkt d p.policy index).peers ≠ some false := by
  intro hview
  unfold ruleView firstPeer at hview
  rw [Option.map_eq_some_iff] at hview
  obtain ⟨r, hfind, hdrop⟩ := hview
  rw [Bool.not_eq_false'] at hdrop
  cases hk.peers p hp index hi r (List.mem_of_find?_eq_some hfind) with
  | all _ hr =>
    rw [hr.isDrop_eq] at hdrop
    cases hdrop
  | peer hr =>
    rw [hr.isDrop_eq] at hdrop
    cases hdrop
  | except hrule _ => exact hex ⟨_, List.getElem_mem hi, hrule⟩

/-- The rules that are evaluated are those of the policies for the packet's interface. -/
theorem mem_seenRules {v : RuleView} :
    v ∈ seenRules (i.views bo k pkt d) ↔ ∃ p ∈ i.policiesIn d, p.Targets i.podInfo pkt d ∧
      ∃ index < (p.policy.rulesIn d).length, ruleView bo k pkt d p.policy index = v := by
  unfold seenRules Input.views
  simp only [List.mem_flatMap, List.mem_filter, List.mem_map, and_assoc, exists_exists_and_eq_and,
    policyView, List.mem_range, targets_iff]

end Rendered

/-! ### Union -/

/-- **Union semantics**: a packet without both marks that is on an interface of some policy passes
exactly when the common chain accepts it, or when a rule of a policy for its interface matches it
both by its ports and by its peers. -/
theorem union_semantics {h : Host} {i : Input} {k : Kernel} {s : State} (wf : k.WF)
    (hk : k.ManagedEmpty) (hs : commitRules h i (State.new k) = .ok () s)
    (hnd : i.chainNames.Nodup) (d : Direction) (hex : ∀ p ∈ i.policiesIn d, ¬ p.policy.hasExcept d)
    (pkt : Packet) (htarget : ∃ p ∈ i.policiesIn d, p.Targets i.podInfo pkt d) (m : BitVec 32)
    (hm : ¬ BothMarks m) :
    (evalChain h.byteOrder s.kernel pkt filterTableName d.entry m).2 ≠ .drop ↔
      (evalChain h.byteOrder s.kernel pkt filterTableName d.commonChain.name m).2 = .accept ∨
      ∃ p ∈ i.policiesIn d, p.Targets i.podInfo pkt d ∧
        ∃ index < (p.policy.rulesIn d).length,
          SetsMark h.byteOrder s.kernel pkt m (chainNameOf d p.policy (.ports index))
            portRuleMark ∧
          SetsMark h.byteOrder s.kernel pkt m (chainNameOf d p.policy (.peers index))
            peerRuleMark := by
  have hr := rendered_of_commit wf hk hs hnd d
  have hne : i.policiesIn d ≠ [] := by
    obtain ⟨p, hp, -⟩ := htarget
    exact List.ne_nil_of_mem hp
  have hcommon : (evalChain h.byteOrder s.kernel pkt filterTableName d.commonChain.name m).2 =
      .accept ↔ commonAccepts h.byteOrder s.kernel pkt d = true := by
    unfold evalChain jumpStackSize
    rw [hr.eval_common]
    cases commonAccepts h.byteOrder s.kernel pkt d <;> simp
  rw [hr.passes_iff, hcommon]
  refine or_congr Iff.rfl ?_
  constructor
  · rintro (h | h | h)
    · exact absurd h hne
    · exact absurd h.1 hm
    · obtain ⟨before, rule, after, hsplit, hrule, -⟩ := h
      have hmem : rule ∈ seenRules (i.views h.byteOrder s.kernel pkt d) := by
        rw [hsplit]
        simp
      obtain ⟨p, hp, htaken, index, hi, rfl⟩ := mem_seenRules.1 hmem
      exact ⟨p, hp, htaken, index, hi, (hr.setsMark_ports hp hi).2 hrule.1,
        (hr.setsMark_peers hp hi).2 hrule.2⟩
  · rintro ⟨p, hp, htaken, index, hi, hports, hpeers⟩
    refine .inr (.inr ?_)
    have hmem : ruleView h.byteOrder s.kernel pkt d p.policy index ∈
        seenRules (i.views h.byteOrder s.kernel pkt d) :=
      mem_seenRules.2 ⟨p, hp, htaken, index, hi, rfl⟩
    obtain ⟨before, after, hsplit⟩ := List.append_of_mem hmem
    refine ⟨before, _, after, hsplit, ⟨(hr.setsMark_ports hp hi).1 hports,
      (hr.setsMark_peers hp hi).1 hpeers⟩, fun r hbefore => ?_⟩
    -- nothing drops before it, as there is no `except`
    have hseen : r ∈ seenRules (i.views h.byteOrder s.kernel pkt d) := by
      rw [hsplit]
      exact List.mem_append_left _ hbefore
    obtain ⟨q, hq, -, j, hj, rfl⟩ := mem_seenRules.1 hseen
    exact hr.peers_ne_some_false hq (hex q hq) hj

/-! ### Computed verdicts -/

/-- The state behind a successful main flush. -/
def committed (h : Host) (i : Input) (k : Kernel) : Option State :=
  match commitRules h i (State.new k) with
  | .ok _ s => some s
  | .error _ _ => none

theorem committed_eq_some {h : Host} {i : Input} {k : Kernel} {s : State}
    (hs : committed h i k = some s) : commitRules h i (State.new k) = .ok () s := by
  unfold committed at hs
  split at hs
  · rename_i heq
    obtain rfl := Option.some.inj hs
    exact heq
  · cases hs

/-- A new TCP connection from an IPv4 address to port 80 that comes in on an interface. -/
def tcpPacket (interface source : Str) : Packet where
  iifname := ifname interface
  oifname := ifname []
  nfproto := 2
  l4proto := 6
  ctState := 8
  networkHeader := List.replicate 12 0 ++ source ++ [10, 0, 0, 1]
  transportHeader := [0x80, 0, 0, 80]

/-- A rule for TCP port 80 and some address blocks with their `except`s. -/
def blockRule (blocks : List (Str × List Str)) : PolicyRule where
  ports := [⟨some .tcp, some (.int 80), none⟩]
  peers := blocks.map fun b => ⟨none, none, some ⟨b.1, b.2⟩⟩

/-- A pod with two policies for its interface `net1`, one rule each. -/
def twoBlocksInput (first second : Str × List Str) : Input :=
  podInput [str "net1"] ⟨[
    ingressPolicy (str "a") isDNS1123Subdomain_a (str "net1") [blockRule [first]],
    ingressPolicy (str "b") (by decide) (str "net1") [blockRule [second]]], by
      show [(str "default", str "a"), (str "default", str "b")].Nodup
      decide⟩

/-- Two policies without `except`. -/
def unionInput : Input := twoBlocksInput (str "10.1.0.0/16", []) (str "10.2.0.0/16", [])

set_option maxRecDepth 100000 in
/-- The second of two policies lets a packet pass. -/
theorem second_policy_passes : ∃ s,
    commitRules Host.reliable unionInput (State.new Kernel.empty) = .ok () s ∧
    (evalChain .little s.kernel (tcpPacket (str "net1") [10, 2, 0, 1]) filterTableName
      ingressChain 0).2 ≠ .drop := by
  have hrun : (committed Host.reliable unionInput Kernel.empty).any (fun s =>
      decide (∃ p ∈ unionInput.policiesIn .ingress,
        p.Targets unionInput.podInfo (tcpPacket (str "net1") [10, 2, 0, 1]) .ingress ∧
        ∃ index < (p.policy.rulesIn .ingress).length,
          SetsMark .little s.kernel (tcpPacket (str "net1") [10, 2, 0, 1]) 0
            (chainNameOf .ingress p.policy (.ports index)) portRuleMark ∧
          SetsMark .little s.kernel (tcpPacket (str "net1") [10, 2, 0, 1]) 0
            (chainNameOf .ingress p.policy (.peers index)) peerRuleMark)) = true := by
    decide +kernel
  obtain ⟨s, hs, hrule⟩ := (Option.any_eq_true _ _).1 hrun
  have hs := committed_eq_some hs
  have hrule := of_decide_eq_true hrule
  have hex : ∀ p ∈ unionInput.policiesIn .ingress, ¬ p.policy.hasExcept .ingress := by
    rintro p hp ⟨rule, hrule, peer, hpeer, block, hblock, hne⟩
    have hnone : ∀ p ∈ unionInput.policiesIn .ingress, ∀ rule ∈ p.policy.rulesIn .ingress,
        ∀ peer ∈ rule.peers, ∀ block ∈ peer.ipBlock, block.except = [] := by
      decide +kernel
    exact hne (hnone p hp rule hrule peer hpeer block hblock)
  refine ⟨s, hs, (union_semantics .empty .empty hs (by decide +kernel) .ingress hex _ ?_ 0
    (by decide)).2 (.inr hrule)⟩
  obtain ⟨p, hp, htaken, -⟩ := hrule
  exact ⟨p, hp, htaken⟩

end MultiNetPolicy
