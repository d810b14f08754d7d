import MultiNetPolicy.Equiv.Entry
import MultiNetPolicy.Equiv.Protocol

/-!
# The tables of a first run

What the main flush of a run leaves in the chains when the daemon's tables were empty before it
(`Rendered`), and what becomes of a packet there.

* `rendered_of_commit`: the chains after the main flush.
* `Rendered.entry_verdict`: the verdict of an entry chain, told by how the packet fares with the
  policies (`Input.views`).
-/

namespace MultiNetPolicy

open ByteString ChainMachine

/-! ### Rules as they are listed -/

theorem Expr.isGuard_listed (e : Expr) : e.listed.isGuard = e.isGuard := by
  cases e <;> rfl

theorem all_isGuard_listed {g : List Expr} (hg : g.all Expr.isGuard = true) :
    (g.map Expr.listed).all Expr.isGuard = true := by
  rw [List.all_map, List.all_eq_true] at *
  intro e he
  rw [Function.comp_apply, e.isGuard_listed]
  exact hg e he

section Content

variable {bo : ByteOrder} {r : Rule}

theorem PortsRule.content (hr : PortsRule bo r) : PortsRule bo r.content := by
  obtain ⟨g, hg, hexprs⟩ := hr
  refine ⟨g.map Expr.listed, all_isGuard_listed hg, ?_⟩
  change r.exprs.map Expr.listed = _
  rw [hexprs, List.map_append]
  rfl

theorem ExceptRule.content (hr : ExceptRule r) : ExceptRule r.content := by
  obtain ⟨g, hg, hexprs⟩ := hr
  refine ⟨g.map Expr.listed, all_isGuard_listed hg, ?_⟩
  change r.exprs.map Expr.listed = _
  rw [hexprs, List.map_append]
  rfl

theorem AcceptRule.content (hr : AcceptRule r) : AcceptRule r.content := by
  obtain ⟨g, hg, hexprs⟩ := hr
  refine ⟨g.map Expr.listed, all_isGuard_listed hg, ?_⟩
  change r.exprs.map Expr.listed = _
  rw [hexprs, List.map_append]
  rfl

theorem PeerRule.content (hr : PeerRule bo r) : PeerRule bo r.content := by
  obtain ⟨g, hg, hexprs⟩ := hr
  refine ⟨g.map Expr.listed, all_isGuard_listed hg, ?_⟩
  change r.exprs.map Expr.listed = _
  rw [hexprs, List.map_append, List.map_append]
  rfl

/-- Listing a rule keeps its kind. -/
theorem PeersRule.content {peers : List MultiNetworkPolicyPeer} (hr : PeersRule bo peers r) :
    PeersRule bo peers r.content := by
  cases hr with
  | all hnone hr =>
    refine .all hnone ?_
    change r.exprs.map Expr.listed = _
    rw [hr]
    rfl
  | peer hr => exact .peer hr.content
  | except hex hr => exact .except hex hr.content

end Content

/-! ### The chains after the main flush -/

/-- The entry chain and the common chain of a direction hold what a run renders. -/
structure EntryRendered (bo : ByteOrder) (i : Input) (d : Direction) (k : Kernel) : Prop where
  entry : k.chainRules filterTableName d.entry =
    commonRule d :: (midRules bo d i.sortedInfo (i.policiesIn d) ++ endRules d (i.policiesIn d))
  common : ∀ r ∈ k.chainRules filterTableName d.commonChain.name, AcceptRule r

/-- All chains of a direction hold what a run renders. -/
structure Rendered (bo : ByteOrder) (i : Input) (d : Direction) (k : Kernel) : Prop
    extends EntryRendered bo i d k where
  policy : ∀ p ∈ i.policiesIn d,
    k.chainRules filterTableName (chainNameOf d p.policy .policy) = policyRules bo d p.policy
  ports : ∀ p ∈ i.policiesIn d, ∀ index < (p.policy.rulesIn d).length,
    ∀ r ∈ k.chainRules filterTableName (chainNameOf d p.policy (.ports index)), PortsRule bo r
  peers : ∀ p ∈ i.policiesIn d, ∀ (index : Nat) (hi : index < (p.policy.rulesIn d).length),
    ∀ r ∈ k.chainRules filterTableName (chainNameOf d p.policy (.peers index)),
      PeersRule bo (p.policy.rulesIn d)[index].peers r

/-- A chain of one policy is of no other one, in either direction. -/
theorem Input.eq_of_nodup {i : Input} (h : i.chainNames.Nodup) {d d' : Direction}
    {p q : InternalPolicy} (hp : p ∈ i.policiesIn d) (hq : q ∈ i.policiesIn d') {c : Str}
    (hc : c ∈ policyChainNames d p.policy) (hc' : c ∈ policyChainNames d' q.policy) :
    d' = d ∧ q = p := by
  obtain ⟨⟨l₁, l₂, hl, hothers⟩, hother⟩ := Input.others_of_nodup h hp hc
  have hd : d' = d := by
    by_contra hne
    exact hother d' hne q hq hc'
  subst hd
  refine ⟨rfl, ?_⟩
  by_contra hne
  rw [hl, List.mem_append, List.mem_cons] at hq
  refine hothers q ?_ hc'
  rw [List.mem_append]
  rcases hq with hq | hq | hq
  · exact .inl hq
  · exact absurd hq hne
  · exact .inr hq

section Flush

variable {bo : ByteOrder} {i : Input} {k : Kernel} {es : List Event} {d : Direction}

/-- The rules of a chain that was empty are the ones asked for. -/
theorem Rendering.mem_synced (hr : Rendering bo i k es) (hk : k.ManagedEmpty) {c : Str} {x : Rule}
    (hx : x ∈ synced k es filterTableName c) :
    ∃ r, RunCall bo i r ∧ r.chain = c ∧ r.content = x := by
  rcases MultiNetPolicy.mem_synced hr.wf hx with hx | ⟨r, hmem, hcontent⟩
  · rw [hk.chainRules (by decide)] at hx
    cases hx
  · obtain ⟨hmem, hc⟩ := mem_rulesOf_callsIn.1 hmem
    obtain ⟨action, force, isNew, he⟩ := mem_rulesOf.1 hmem
    exact ⟨r, Render.calls_renderInput hr.exec hr.answers _ he, (Rule.inChain_iff.1 hc).2, hcontent⟩

/-- An entry chain behind the main flush of a first run. -/
theorem Rendering.synced_entry_fresh (hr : Rendering bo i k es) (hk : k.ManagedEmpty) :
    synced k es filterTableName d.entry =
      commonRule d :: (midRules bo d i.sortedInfo (i.policiesIn d) ++
        endRules d (i.policiesIn d)) := by
  have hempty := hk.chainRules (t := filterTableName) (by decide) d.entry
  rw [hr.synced_entry, hempty]
  simp [endRules]

/-- The rules in a chain of a policy are rules of that policy. -/
theorem Rendering.policyCall (hr : Rendering bo i k es) (hk : k.ManagedEmpty)
    (hnd : i.chainNames.Nodup) {p : InternalPolicy} (hp : p ∈ i.policiesIn d) {role : ChainRole}
    (hrole : role ∈ rolesBelow (p.policy.rulesIn d).length) {x : Rule}
    (hx : x ∈ synced k es filterTableName (chainNameOf d p.policy role)) :
    ∃ r, PolicyCall bo d p.policy r ∧ r.InFilter (chainNameOf d p.policy role) ∧ r.content = x := by
  obtain ⟨r, hcall, hc, rfl⟩ := hr.mem_synced hk hx
  have hmem : chainNameOf d p.policy role ∈ policyChainNames d p.policy :=
    List.mem_map_of_mem hrole
  have hbase : r.chain ∉ baseChainNames := by
    rw [hc]
    exact chainNameOf_not_base d p.policy role
  obtain ⟨d', q, hq, hr'⟩ := hcall.exists_policy hbase
  obtain ⟨c, hcq, hrc⟩ := hr'.mem_names
  rw [← hrc.2, hc] at hcq
  obtain ⟨rfl, rfl⟩ := Input.eq_of_nodup hnd hp hq hmem hcq
  exact ⟨r, hr', ⟨hrc.1, hc⟩, rfl⟩

end Flush

/-- **The chains after the main flush of a first run.** -/
theorem entryRendered_of_commit {h : Host} {i : Input} {k : Kernel} {s : State} (wf : k.WF)
    (hk : k.ManagedEmpty) (hs : commitRules h i (State.new k) = .ok () s) (d : Direction) :
    EntryRendered h.byteOrder i d s.kernel := by
  obtain ⟨es, hexec, ⟨ops, hq⟩, -, -, -, -, hchain⟩ := commitRules_ok wf hs
  have hr : Rendering h.byteOrder i k es := ⟨wf, hexec, hq.answers⟩
  constructor
  · rw [hchain _ (by decide), hr.synced_entry_fresh hk]
  · intro x hx
    rw [hchain _ (by decide)] at hx
    obtain ⟨r, hcall, hc, rfl⟩ := hr.mem_synced hk hx
    cases hcall with
    | hook hhook _ =>
      have hne : ∀ d : Direction, d.commonChain.name ∉ [str "input", str "output",
        str "prerouting"] := by decide
      rw [hc] at hhook
      exact absurd hhook (hne d)
    | entry d' hr' _ =>
      have hne : ∀ d d' : Direction, d'.entry ≠ d.commonChain.name := by decide
      exact absurd (hr'.2.symm.trans hc) (hne d d')
    | common d' _ hshape => exact hshape.content
    | policy d' q hq hr' =>
      obtain ⟨c, hcq, hrc⟩ := hr'.mem_names
      exact absurd (hrc.2.symm.trans hc) (ne_base_of_mem hcq d.common_mem_base)

/-- **The main flush of a first run renders the policies.** -/
theorem rendered_of_commit {h : Host} {i : Input} {k : Kernel} {s : State} (wf : k.WF)
    (hk : k.ManagedEmpty) (hs : commitRules h i (State.new k) = .ok () s)
    (hnd : i.chainNames.Nodup) (d : Direction) : Rendered h.byteOrder i d s.kernel := by
  have hentry := entryRendered_of_commit wf hk hs d
  obtain ⟨es, hexec, ⟨ops, hq⟩, -, -, -, -, hchain⟩ := commitRules_ok wf hs
  have hr : Rendering h.byteOrder i k es := ⟨wf, hexec, hq.answers⟩
  refine ⟨hentry, fun p hp => ?_, fun p hp index hi x hx => ?_, fun p hp index hi x hx => ?_⟩
  · rw [hchain _ (by decide), synced_appendCalls wf
      (fun r hmem => settled_of_mem_policyRules hmem)
      (Render.callsIn_policyChain hexec hq.answers hnd hp), hk.chainRules (by decide)]
    simp
  · rw [hchain _ (by decide)] at hx
    -- distinct names tell which of the policy's chains a rule is in
    have hrole : ChainRole.ports index ∈ rolesBelow (p.policy.rulesIn d).length :=
      mem_rolesBelow.2 hi
    obtain ⟨r, hcall, hc, rfl⟩ := hr.policyCall hk hnd hp hrole hx
    cases hcall with
    | policy hr' _ =>
      cases Input.role_eq_of_nodup hnd hp (mem_rolesBelow.2 trivial) hrole (hr'.2.symm.trans hc.2)
    | ports j hj hr' hshape => exact hshape.content
    | peers j hj hr' _ =>
      cases Input.role_eq_of_nodup hnd hp (mem_rolesBelow.2 hj) hrole (hr'.2.symm.trans hc.2)
  · rw [hchain _ (by decide)] at hx
    have hrole : ChainRole.peers index ∈ rolesBelow (p.policy.rulesIn d).length :=
      mem_rolesBelow.2 hi
    obtain ⟨r, hcall, hc, rfl⟩ := hr.policyCall hk hnd hp hrole hx
    cases hcall with
    | policy hr' _ =>
      cases Input.role_eq_of_nodup hnd hp (mem_rolesBelow.2 trivial) hrole (hr'.2.symm.trans hc.2)
    | ports j hj hr' _ =>
      cases Input.role_eq_of_nodup hnd hp (mem_rolesBelow.2 hj) hrole (hr'.2.symm.trans hc.2)
    | peers j hj hr' hshape =>
      have heq := Input.role_eq_of_nodup hnd hp (mem_rolesBelow.2 hj) hrole
        (hr'.2.symm.trans hc.2)
      obtain rfl := ChainRole.peers.inj heq
      exact hshape.content

/-! ### Packets -/

section Views

variable (bo : ByteOrder) (k : Kernel) (pkt : Packet) (d : Direction)

/-- How a packet fares with a rule of a policy. -/
def ruleView (p : MultiNetworkPolicy) (index : Nat) : RuleView where
  ports := (k.chainRules filterTableName (chainNameOf d p (.ports index))).any (Rule.isHit bo k pkt)
  peers := firstPeer bo k pkt (k.chainRules filterTableName (chainNameOf d p (.peers index)))

/-- How a packet fares with a policy. -/
def policyView (podInfo : PodInfo) (p : InternalPolicy) : PolicyView where
  taken := (p.interfaces podInfo).any (pkt.isOn d)
  rules := (List.range (p.policy.rulesIn d).length).map (ruleView bo k pkt d p.policy)

/-- How a packet fares with the policies of a run. -/
def Input.views (i : Input) : List PolicyView :=
  (i.policiesIn d).map (policyView bo k pkt d i.sortedInfo)

/-- The common chain accepts a packet. -/
def commonAccepts : Bool :=
  (k.chainRules filterTableName d.commonChain.name).any (Rule.isHit bo k pkt)

end Views

section Verdict

variable {bo : ByteOrder} {i : Input} {k : Kernel} {pkt : Packet} {d : Direction}
  {p : InternalPolicy}

theorem EntryRendered.eval_common (hk : EntryRendered bo i d k) (depth : Nat) (m : BitVec 32) :
    ChainMachine.evalChain (tableMachine bo k pkt filterTableName) (depth + 1)
      d.commonChain.name m =
      (m, if commonAccepts bo k pkt d then .accept else .done) := by
  rw [evalChain_succ]
  change ((flow _ _ (k.chainRules filterTableName d.commonChain.name) m).1,
    (flow _ _ (k.chainRules filterTableName d.commonChain.name) m).2.getD .done) = _
  rw [flow_common hk.common]
  unfold commonAccepts
  split <;> rfl

/-- The chains of a rule answer as their rules say. -/
theorem Rendered.answers_rule (hk : Rendered bo i d k) (hp : p ∈ i.policiesIn d) {index : Nat}
    (hi : index < (p.policy.rulesIn d).length) (depth : Nat) :
    (ruleView bo k pkt d p.policy index).Answers
      (ChainMachine.evalChain (tableMachine bo k pkt filterTableName) (depth + 1)) d p.policy
      index := by
  constructor
  · intro m
    rw [evalChain_succ]
    change ((flow _ _ (k.chainRules filterTableName (chainNameOf d p.policy (.ports index))) m).1,
      (flow _ _ (k.chainRules filterTableName (chainNameOf d p.policy (.ports index))) m).2.getD
        .done) = _
    rw [flow_ports (hk.ports p hp index hi)]
    rfl
  · intro m
    rw [evalChain_succ]
    exact flow_peers (hk.peers p hp index hi) m

/-- The chain of a policy answers as its rules do. -/
theorem Rendered.answers_policy (hk : Rendered bo i d k) (hp : p ∈ i.policiesIn d) (depth : Nat) :
    (policyView bo k pkt d i.sortedInfo p).Answers
      (ChainMachine.evalChain (tableMachine bo k pkt filterTableName) (depth + 2)) pkt d
      i.sortedInfo p := by
  refine ⟨rfl, fun _ m => ?_⟩
  rw [evalChain_succ]
  change ((flow _ _ (k.chainRules filterTableName (chainNameOf d p.policy .policy)) m).1,
    (flow _ _ (k.chainRules filterTableName (chainNameOf d p.policy .policy)) m).2.getD .done) = _
  have hrules : List.Forall₂ (fun v index => v.Answers (ChainMachine.evalChain
      (tableMachine bo k pkt filterTableName) (depth + 1)) d p.policy index)
      (policyView bo k pkt d i.sortedInfo p).rules (List.range (p.policy.rulesIn d).length) := by
    rw [policyView, List.forall₂_map_left_iff, List.forall₂_same]
    intro index hindex
    exact hk.answers_rule hp (List.mem_range.1 hindex) depth
  rw [hk.policy p hp, flow_policyRules hrules]

/-- What the policies of a direction make of a packet that the common chain does not accept. -/
def policiesVerdict (views : List PolicyView) (m : BitVec 32) : Verdict :=
  if views = [] then .done
  else if BothMarks m ∧ views.head?.any (fun v => !v.resets) = true then .done
  else if views.findSome? PolicyView.decision = some true then .done else .drop

/-- **The verdict of an entry chain.** -/
theorem EntryRendered.entry_verdict (hk : EntryRendered bo i d k) {views : List PolicyView}
    (hviews : List.Forall₂ (fun v p => v.Answers (ChainMachine.evalChain
      (tableMachine bo k pkt filterTableName) 15) pkt d i.sortedInfo p) views (i.policiesIn d))
    (m : BitVec 32) :
    (evalChain bo k pkt filterTableName d.entry m).2 =
      if commonAccepts bo k pkt d then .accept else policiesVerdict views m := by
  have hcommon : (tableMachine bo k pkt filterTableName).exec (commonRule d) m =
      (m, .jump d.commonChain.name) := by
    cases d <;> rfl
  have hdrop : ∀ m, (tableMachine bo k pkt filterTableName).exec (dropRule d) m = (m, .drop) :=
    fun m => rfl
  unfold evalChain jumpStackSize
  rw [evalChain_succ]
  change ((flow _ _ (k.chainRules filterTableName d.entry) m).2.getD .done) = _
  -- first the common chain, then the policies in order, then the drop
  rw [hk.entry, flow, hcommon]
  simp only [hk.eval_common]
  cases hacc : commonAccepts bo k pkt d with
  | true => rfl
  | false =>
    have hmid : (flow (tableMachine bo k pkt filterTableName) _ _ m).2 = _ := flow_midRules hviews m
    simp only [Bool.false_eq_true, if_false]
    rw [flow_append]
    rcases hflow : flow (tableMachine bo k pkt filterTableName) (ChainMachine.evalChain
      (tableMachine bo k pkt filterTableName) 15) (midRules bo d i.sortedInfo (i.policiesIn d)) m
      with ⟨m', o⟩
    rw [hflow] at hmid
    simp only at hmid
    unfold policiesVerdict
    by_cases hnil : views = []
    · -- no policies: the chain ends here
      subst hnil
      have hpol : i.policiesIn d = [] := List.forall₂_nil_left_iff.1 hviews
      rw [if_neg (fun hc => Bool.false_ne_true hc.2)] at hmid
      rw [hmid, hpol]
      rfl
    · have hne : i.policiesIn d ≠ [] := by
        intro hpol
        rw [hpol] at hviews
        exact hnil (List.forall₂_nil_right_iff.1 hviews)
      have hend : endRules d (i.policiesIn d) = [dropRule d] := by
        unfold endRules
        rw [List.isEmpty_eq_false_iff.2 hne]
        rfl
      rw [if_neg hnil, hmid, hend]
      by_cases hfirst : BothMarks m ∧ views.head?.any (fun v => !v.resets) = true
      · rw [if_pos hfirst, if_pos hfirst]
        rfl
      · rw [if_neg hfirst, if_neg hfirst]
        rcases views.findSome? PolicyView.decision with _ | _ | _
        · rw [if_neg (by simp), Option.map_none]
          simp only [flow, hdrop]
          rfl
        · rfl
        · rfl

/-- **The verdict of an entry chain.** -/
theorem Rendered.verdict (hk : Rendered bo i d k) (m : BitVec 32) :
    (evalChain bo k pkt filterTableName d.entry m).2 =
      if commonAccepts bo k pkt d then .accept else policiesVerdict (i.views bo k pkt d) m := by
  refine hk.entry_verdict ?_ m
  rw [Input.views, List.forall₂_map_left_iff, List.forall₂_same]
  exact fun p hp => hk.answers_policy hp 13

end Verdict

end MultiNetPolicy
