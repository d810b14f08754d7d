import MultiNetPolicy.Equiv.Selectors
import MultiNetPolicy.Equiv.SetNames

/-!
# The sets of an input

The sets that the rendering of an input asks for: the base sets, and for each applied policy the
sets of its rules' ports and peers.

* `requestedSets_cases`: no other set is asked for, and the set of a selector peer is asked for with
  the addresses of one version.
* `Input.eq_of_setName_eq`: hash collisions and cut names apart, every one has a name of its own.
* `exists_addressCalls`: a rendering that succeeds asks for the sets of every selector peer.
-/

namespace MultiNetPolicy

open ByteString Render

/-! ### The sets that policies can ask for -/

/-- The sets of a peer; `index` counts the rules and the second component the peers. -/
def peerRoles (index : Nat) (peer : MultiNetworkPolicyPeer × Nat) : List SetRole :=
  [false, true].flatMap fun isV6 =>
    match peer.1.ipBlock with
    | some _ => [.ipBlock index peer.2 false isV6, .ipBlock index peer.2 true isV6]
    | none => [.selector index peer.2 isV6 (selectorText peer.1)]

/-- The sets of a rule. -/
def ruleRoles (rule : PolicyRule × Nat) : List SetRole :=
  [Protocol.tcp, .udp, .sctp].attach.map (SetRole.ports rule.2) ++
    rule.1.peers.zipIdx.flatMap (peerRoles rule.2)

/-- The sets that the applied policies can ask for. -/
def Input.setUses (i : Input) : List SetUse :=
  [Direction.ingress, .egress].flatMap fun d => (i.policiesIn d).flatMap fun p =>
    ((p.policy.rulesIn d).zipIdx.flatMap ruleRoles).map fun role => ⟨d, p.policy, role⟩

theorem mem_ruleRoles_ports (rule : PolicyRule) (index : Nat)
    (protocol : { p : Protocol // p ∈ [.tcp, .udp, .sctp] }) :
    SetRole.ports index protocol ∈ ruleRoles (rule, index) :=
  List.mem_append_left _ (List.mem_map_of_mem (List.mem_attach _ protocol))

theorem mem_ruleRoles_peer {rule : PolicyRule} {index : Nat} {peer : MultiNetworkPolicyPeer × Nat}
    {role : SetRole} (hpeer : peer ∈ rule.peers.zipIdx) (hrole : role ∈ peerRoles index peer) :
    role ∈ ruleRoles (rule, index) :=
  List.mem_append_right _ (List.mem_flatMap.2 ⟨peer, hpeer, hrole⟩)

theorem mem_peerRoles_block {index : Nat} {peer : MultiNetworkPolicyPeer × Nat}
    (hblock : peer.1.ipBlock ≠ none) (isExcept isV6 : Bool) :
    SetRole.ipBlock index peer.2 isExcept isV6 ∈ peerRoles index peer := by
  obtain ⟨block, hblock⟩ := Option.ne_none_iff_exists'.1 hblock
  unfold peerRoles
  rw [hblock]
  cases isExcept <;> cases isV6 <;> simp

theorem mem_peerRoles_selector {index : Nat} {peer : MultiNetworkPolicyPeer × Nat}
    (hblock : peer.1.ipBlock = none) (isV6 : Bool) :
    SetRole.selector index peer.2 isV6 (selectorText peer.1) ∈ peerRoles index peer := by
  unfold peerRoles
  rw [hblock]
  cases isV6 <;> simp

/-- The sets that the policies of an input can ask for. -/
theorem Input.mem_setUses {i : Input} {u : SetUse} : u ∈ i.setUses ↔
    ∃ p ∈ i.policiesIn u.direction, u.policy = p.policy ∧
      ∃ x ∈ (p.policy.rulesIn u.direction).zipIdx, u.role ∈ ruleRoles x := by
  obtain ⟨d, policy, role⟩ := u
  simp only [Input.setUses, List.mem_flatMap, List.mem_map, SetUse.mk.injEq]
  constructor
  · rintro ⟨_, -, p, hp, _, ⟨x, hx, hrole⟩, rfl, rfl, rfl⟩
    exact ⟨p, hp, rfl, x, hx, hrole⟩
  · rintro ⟨p, hp, rfl, x, hx, hrole⟩
    exact ⟨d, by cases d <;> simp, p, hp, role, ⟨x, hx, hrole⟩, rfl, rfl, rfl⟩

/-- The sets of a rule have the index of the rule. -/
theorem index_of_mem_ruleRoles {x : PolicyRule × Nat} {role : SetRole} (h : role ∈ ruleRoles x) :
    role.index = x.2 := by
  rcases List.mem_append.1 h with h | h
  · obtain ⟨protocol, -, rfl⟩ := List.mem_map.1 h
    rfl
  · obtain ⟨peer, -, h⟩ := List.mem_flatMap.1 h
    obtain ⟨isV6, -, h⟩ := List.mem_flatMap.1 h
    split at h
    · simp only [List.mem_cons, List.not_mem_nil, or_false] at h
      rcases h with rfl | rfl <;> rfl
    · obtain rfl := List.mem_singleton.1 h
      rfl

/-- An applied policy comes from the policy map. -/
theorem Input.exists_applicable {i : Input} {d : Direction} {p : InternalPolicy}
    (hp : p ∈ i.policiesIn d) :
    p.policy ∈ i.policyMap.policies ∧ p.policy.namespace = i.pod.namespace ∧
      applicable i.pod i.sortedInfo p.policy = some p := by
  have hmem : p ∈ i.applicablePolicies := by
    cases d <;> exact List.mem_of_mem_filter ((List.mem_insertionSort _).1 hp)
  obtain ⟨a, ha, hpa⟩ := List.mem_filterMap.1 hmem
  have hpolicy := applicable_policy hpa
  rw [hpolicy]
  exact ⟨ha, applicable_namespace hpa, hpa⟩

/-- Two applied policies with the same name are the same. -/
theorem Input.eq_of_policy_name_eq {i : Input} {d d' : Direction} {p q : InternalPolicy}
    (hp : p ∈ i.policiesIn d) (hq : q ∈ i.policiesIn d') (h : p.policy.name = q.policy.name) :
    p = q := by
  obtain ⟨hpmem, hpns, hpapp⟩ := Input.exists_applicable hp
  obtain ⟨hqmem, hqns, hqapp⟩ := Input.exists_applicable hq
  have hpolicy : p.policy = q.policy :=
    List.inj_on_of_nodup_map i.policyMap.keys_nodup hpmem hqmem
      (Prod.ext (hpns.trans hqns.symm) h)
  rw [hpolicy, hqapp] at hpapp
  exact (Option.some.inj hpapp).symm

/-- **The sets of an input have names of their own**, when hashes do not collide and no policy is
named like the cut form of another one. -/
theorem Input.eq_of_setName_eq {i : Input}
    (hlen : ∀ d, ∀ p ∈ i.policiesIn d, (p.policy.rulesIn d).length ≤ maxRuleIndex)
    (hn : SetNamesApart i.setUses) (hh : SetHashesApart i.setUses) {u u' : SetUse}
    (hu : u ∈ i.setUses) (hu' : u' ∈ i.setUses) (h : u.name = u'.name) : u = u' := by
  -- policies apply in their own namespace, so that the name tells the policy
  have hns : ∀ v ∈ i.setUses, v.policy.namespace = i.pod.namespace := by
    intro v hv
    obtain ⟨p, hp, hpolicy, -⟩ := Input.mem_setUses.1 hv
    rw [hpolicy]
    exact (Input.exists_applicable hp).2.1
  have hindex : ∀ v ∈ i.setUses, v.role.index < maxRuleIndex := by
    intro v hv
    obtain ⟨p, hp, -, x, hx, hrole⟩ := Input.mem_setUses.1 hv
    have hlt := List.snd_lt_of_mem_zipIdx hx
    rw [index_of_mem_ruleRoles hrole]
    have := hlen _ p hp
    omega
  have hkey := hn.key_eq hns hindex hh hu hu' h
  obtain ⟨p, hp, hpolicy, -⟩ := Input.mem_setUses.1 hu
  obtain ⟨p', hp', hpolicy', -⟩ := Input.mem_setUses.1 hu'
  obtain ⟨d, policy, role⟩ := u
  obtain ⟨d', policy', role'⟩ := u'
  simp only [SetUse.key, Prod.mk.injEq] at hkey
  obtain ⟨rfl, hname, rfl⟩ := hkey
  obtain rfl : policy = p.policy := hpolicy
  obtain rfl : policy' = p'.policy := hpolicy'
  rw [Input.eq_of_policy_name_eq hp hp' hname]

/-! ### The sets that a rendering asks for -/

/-- The elements of one list of addresses, with the set they are written into. -/
structure AddressGroup (addrs : List Str) (isV6 : Bool) (els : List SetElement) : Prop where
  intro ::
  exists_lead : ∃ f : Str → Bool, (f = isIPv4Text ∨ f = fun a => !isIPv4Text a) ∧
    els = keyElements (addrs.filter f) ∧ ∃ a ∈ (addrs.filter f).head?, isV6 = isV6Key a

/-- A set that the rendering of a policy asks for, and the elements it wants there. -/
inductive SetRole.Asked (deps : PolicyDeps) (podInfo : PodInfo) (d : Direction)
    (p : InternalPolicy) : SetRole → List SetElement → Prop where
  | ports {rule : PolicyRule} {index : Nat} (hrule : (rule, index) ∈ (p.policy.rulesIn d).zipIdx)
      (protocol : { p : Protocol // p ∈ [.tcp, .udp, .sctp] }) (els : List SetElement) :
      Asked deps podInfo d p (.ports index protocol) els
  | ipBlock {rule : PolicyRule} {index : Nat} {peer : MultiNetworkPolicyPeer × Nat}
      (hrule : (rule, index) ∈ (p.policy.rulesIn d).zipIdx) (hpeer : peer ∈ rule.peers.zipIdx)
      (hblock : peer.1.ipBlock ≠ none) (isExcept isV6 : Bool) (els : List SetElement) :
      Asked deps podInfo d p (.ipBlock index peer.2 isExcept isV6) els
  | selector {rule : PolicyRule} {index : Nat} {peer : MultiNetworkPolicyPeer × Nat}
      {addrs : List Str} {isV6 : Bool} {els : List SetElement}
      (hrule : (rule, index) ∈ (p.policy.rulesIn d).zipIdx) (hpeer : peer ∈ rule.peers.zipIdx)
      (hblock : peer.1.ipBlock = none)
      (haddrs : deps.addressesOf podInfo d p index peer = .ok addrs)
      (hgroup : AddressGroup addrs isV6 els) :
      Asked deps podInfo d p (.selector index peer.2 isV6 (selectorText peer.1)) els

/-- A set is asked for by a rule. -/
theorem SetRole.Asked.exists_rule {deps : PolicyDeps} {podInfo : PodInfo} {d : Direction}
    {p : InternalPolicy} {role : SetRole} {els : List SetElement}
    (h : role.Asked deps podInfo d p els) :
    ∃ x ∈ (p.policy.rulesIn d).zipIdx, role ∈ ruleRoles x := by
  cases h with
  | ports hrule protocol els => exact ⟨_, hrule, mem_ruleRoles_ports _ _ protocol⟩
  | ipBlock hrule hpeer hblock isExcept isV6 els =>
    exact ⟨_, hrule, mem_ruleRoles_peer hpeer (mem_peerRoles_block hblock isExcept isV6)⟩
  | selector hrule hpeer hblock _ _ =>
    exact ⟨_, hrule, mem_ruleRoles_peer hpeer (mem_peerRoles_selector hblock _)⟩

/-- A peer is asked for the elements of its own addresses. -/
theorem SetRole.Asked.addressGroup {deps : PolicyDeps} {podInfo : PodInfo} {d : Direction}
    {p : InternalPolicy} {x : PolicyRule × Nat} (hx : x ∈ (p.policy.rulesIn d).zipIdx)
    {y : MultiNetworkPolicyPeer × Nat} (hy : y ∈ x.1.peers.zipIdx) {addrs : List Str}
    (haddrs : deps.addressesOf podInfo d p x.2 y = .ok addrs) {isV6 : Bool} {text : Str}
    {els : List SetElement} (h : (SetRole.selector x.2 y.2 isV6 text).Asked deps podInfo d p els) :
    AddressGroup addrs isV6 els := by
  generalize hrole : SetRole.selector x.2 y.2 isV6 text = role at h
  cases h with
  | ports hrule protocol els => cases hrole
  | ipBlock hrule hpeer hblock isExcept isV6 els => cases hrole
  | @selector rule index peer addrs' isV6' els hrule hpeer hblock haddrs' hgroup =>
    obtain ⟨rfl, hpeerIndex, rfl, -⟩ := SetRole.selector.inj hrole
    obtain rfl : rule = x.1 :=
      (List.fst_eq_of_mem_zipIdx hrule).trans (List.fst_eq_of_mem_zipIdx hx).symm
    obtain rfl : peer = y := by
      refine Prod.ext ?_ hpeerIndex.symm
      have hfst := List.fst_eq_of_mem_zipIdx hpeer
      have hfst' := List.fst_eq_of_mem_zipIdx hy
      simp only [hpeerIndex] at hfst'
      exact hfst.trans hfst'.symm
    obtain rfl := Except.ok.inj (haddrs'.symm.trans haddrs)
    exact hgroup

/-- A set call is for a set of the policy. -/
def Event.SetOf (deps : PolicyDeps) (podInfo : PodInfo) (d : Direction) (p : InternalPolicy) :
    Event → Prop
  | .set s els _ => ∃ role id, s = (⟨d, p.policy, role⟩ : SetUse).set.short id ∧
      role.Asked deps podInfo d p els
  | _ => True

namespace Render

variable {bo : ByteOrder} {deps : PolicyDeps} {podInfo : PodInfo} {d : Direction}
  {p : InternalPolicy}

section Rule

variable {policyName : Str} {rule : PolicyRule} {index : Nat}
  (hrule : (rule, index) ∈ (p.policy.rulesIn d).zipIdx)
include hrule

theorem emits_applyProtoPorts_sets {portChain : Chain} {els : List SetElement}
    (protocol : { p : Protocol // p ∈ [.tcp, .udp, .sctp] }) :
    Emits (Event.SetOf deps podInfo d p) (fun _ => True)
      (applyProtoPorts bo (policyChainOf d.entry p.policy)
        (portsChainName (policyChainFullName d.entry p.policy) index) portChain policyName
        protocol.1 els) := by
  refine emits_when fun _ => emits_bind (emits_updateSet fun id _ => ?_) fun set _ => ?_
  · exact ⟨.ports index protocol, id, rfl, .ports hrule protocol els⟩
  · exact emits_wrapErr (emits_updateRule_unit fun _ => trivial)

/-- The sets for the ports of a rule. -/
theorem emits_applyPolicyPortsRules_sets {ports : List MultiNetworkPolicyPort} :
    Emits (Event.SetOf deps podInfo d p) (fun _ => True)
      (applyPolicyPortsRules bo (policyChainFullName d.entry p.policy)
        (policyChainOf d.entry p.policy) policyName ports index) := by
  refine emits_bind (emits_wrapErr (emits_addChain trivial)) fun portChain _ => ?_
  refine emits_bind (emits_updateRule fun _ => trivial) fun _ _ => ?_
  refine emits_bind (emits_ofExcept _) fun els _ => ?_
  refine emits_bind (emits_applyProtoPorts_sets hrule ⟨.tcp, by decide⟩) fun _ _ => ?_
  refine emits_bind (emits_applyProtoPorts_sets hrule ⟨.udp, by decide⟩) fun _ _ => ?_
  refine emits_bind (emits_applyProtoPorts_sets hrule ⟨.sctp, by decide⟩) fun _ _ => ?_
  exact emits_when fun _ => emits_updateRule_unit fun _ => trivial

variable {chain : Chain} (ht : chain.table = filterTableName)
  {peer : MultiNetworkPolicyPeer × Nat} (hpeer : peer ∈ rule.peers.zipIdx)
include ht hpeer

theorem emits_applyPrefixes_sets (hblock : peer.1.ipBlock ≠ none) {cidr : Str}
    {els exceptEls : List SetElement} {isV6 : Bool} :
    Emits (Event.SetOf deps podInfo d p) (fun _ => True)
      (applyPrefixes bo (peersChainName (policyChainFullName d.entry p.policy) index) chain
        policyName cidr peer.2 els exceptEls isV6) := by
  refine emits_when fun _ => emits_bind (emits_when fun _ => ?_) fun _ _ => ?_
  · refine emits_bind (emits_wrapErr (emits_updateSet fun id _ => ?_)) fun set _ =>
      emits_updateRule_unit fun _ => trivial
    rw [ht]
    exact ⟨.ipBlock index peer.2 true isV6, id, rfl, .ipBlock hrule hpeer hblock ..⟩
  · refine emits_bind (emits_wrapErr (emits_updateSet fun id _ => ?_)) fun set _ =>
      emits_updateRule_unit fun _ => trivial
    rw [ht]
    exact ⟨.ipBlock index peer.2 false isV6, id, rfl, .ipBlock hrule hpeer hblock ..⟩

/-- The sets of a selector peer are written with its addresses of one version. -/
theorem emits_addIPRules_sets (hblock : peer.1.ipBlock = none) {addrs : List Str}
    (haddrs : deps.addressesOf podInfo d p index peer = .ok addrs) :
    Emits (Event.SetOf deps podInfo d p) (fun _ => True)
      (addIPRules bo (peersChainName (policyChainFullName d.entry p.policy) index) addrs chain
        policyName peer.1 peer.2) := by
  intro es u hexec
  obtain ⟨-, es₄, es₆, rfl, h₄, h₆⟩ := exec_addIPRules hexec
  -- a group asks for at most one set, named after its first address's family
  have hcalls : ∀ {f : Str → Bool} {es : List Event},
      (f = isIPv4Text ∨ f = fun a => !isIPv4Text a) →
      AddressCalls bo (peersChainName (policyChainFullName d.entry p.policy) index) chain policyName
        peer.1 peer.2 (addrs.filter f) es → ∀ e ∈ es, e.SetOf deps podInfo d p := by
    intro f es hf h e he
    generalize hl : addrs.filter f = l at h
    cases h with
    | none => cases he
    | set addr rest id fresh isNew =>
      rcases List.mem_cons.1 he with rfl | he
      · refine ⟨.selector index peer.2 (isV6Key addr) (selectorText peer.1), id, ?_,
          .selector hrule hpeer hblock haddrs ⟨f, hf, ?_, addr, ?_, rfl⟩⟩
        · rw [ht]
          rfl
        · rw [hl]
          rfl
        · rw [hl]
          rfl
      · obtain rfl := List.mem_singleton.1 he
        trivial
  refine ⟨fun e he => ?_, trivial⟩
  rcases List.mem_append.1 he with he | he
  · exact hcalls (.inl rfl) h₄ e he
  · exact hcalls (.inr rfl) h₆ e he

theorem emits_applyPolicyPeer_sets :
    Emits (Event.SetOf deps podInfo d p) (fun _ => True)
      (applyPolicyPeer bo deps (peersChainName (policyChainFullName d.entry p.policy) index) chain
        policyName podInfo p.policyNetworks peer.2 peer.1) := by
  unfold applyPolicyPeer
  split
  · rename_i block hblock
    have hblock : peer.1.ipBlock ≠ none := by
      rw [hblock]
      exact Option.some_ne_none _
    refine emits_wrapErr (emits_bind (emits_wrapErr (emits_ofExcept _)) fun _ _ => ?_)
    refine emits_bind (emits_wrapErr (emits_ofExcept _)) fun _ _ => ?_
    exact emits_bind (emits_wrapErr (emits_applyPrefixes_sets hrule ht hpeer hblock)) fun _ _ =>
      emits_wrapErr (emits_applyPrefixes_sets hrule ht hpeer hblock)
  · rename_i hblock
    split
    · rw [applyPolicyPeersRulesSelector_eq]
      refine emits_wrapErr (emits_bind (emits_ofExcept _) fun addrs haddrs => ?_)
      exact emits_wrapErr (emits_addIPRules_sets hrule ht hpeer hblock haddrs)
    · exact emits_fail

omit ht hpeer in
/-- The sets for the peers of a rule. -/
theorem emits_applyPolicyPeersRules_sets :
    Emits (Event.SetOf deps podInfo d p) (fun _ => True)
      (applyPolicyPeersRules bo deps (policyChainFullName d.entry p.policy)
        (policyChainOf d.entry p.policy) policyName rule.peers podInfo p.policyNetworks index) := by
  refine emits_bind (emits_wrapErr (emits_addChain trivial)) fun peersChain hpeers => ?_
  have ht : peersChain.table = filterTableName := by
    rw [hpeers]
    rfl
  refine emits_bind (emits_updateRule fun _ => trivial) fun _ _ => ?_
  refine emits_bind (emits_forEach_zipIdx _ _ fun peer hpeer =>
    emits_applyPolicyPeer_sets hrule ht hpeer) fun _ _ => ?_
  exact emits_when fun _ => emits_updateRule_unit fun _ => trivial

end Rule

/-- Rendering a policy asks for its own sets only. -/
theorem emits_applyPolicyRules_sets :
    Emits (Event.SetOf deps podInfo d p) (fun _ => True)
      (applyPolicyRules bo deps (policyChainFullName d.entry p.policy)
        (policyChainOf d.entry p.policy) podInfo p.policyNetworks p.policy) := by
  have hblock : ∀ {policyName resetName direction : Str}, ∀ x ∈ (p.policy.rulesIn d).zipIdx,
      Emits (Event.SetOf deps podInfo d p) (fun _ => True)
        (applyPolicyRule bo deps (policyChainFullName d.entry p.policy)
          (policyChainOf d.entry p.policy) podInfo p.policyNetworks policyName resetName direction
          x.2 x.1) := by
    intro policyName resetName direction x hx
    refine emits_bind (emits_wrapErr (emits_updateRule_unit fun _ => trivial)) fun _ _ => ?_
    refine emits_bind (emits_wrapErr (emits_applyPolicyPortsRules_sets hx)) fun _ _ => ?_
    exact emits_bind (emits_wrapErr (emits_applyPolicyPeersRules_sets hx)) fun _ _ =>
      emits_wrapErr (emits_updateRule_unit fun _ => trivial)
  unfold applyPolicyRules
  rw [isIngressChain_policyChainFullName]
  cases d with
  | ingress => exact emits_forEach_zipIdx _ _ hblock
  | egress => exact emits_forEach_zipIdx _ _ hblock

end Render

/-- A set call is for a base set or for a set of an applied policy. -/
def Event.AskedBy (i : Input) : Event → Prop
  | .set s els _ => s.name ∈ baseSetNames ∨ ∃ d, ∃ p ∈ i.policiesIn d, ∃ role id,
      s = (⟨d, p.policy, role⟩ : SetUse).set.short id ∧
        role.Asked i.deps i.sortedInfo d p els
  | _ => True

theorem Event.SetOf.askedBy {i : Input} {d : Direction} {p : InternalPolicy}
    (hp : p ∈ i.policiesIn d) : ∀ {e : Event}, e.SetOf i.deps i.sortedInfo d p → e.AskedBy i
  | .set _ _ _, h => .inr ⟨d, p, hp, h⟩
  | .chain _, _ => trivial
  | .rule _ _ _ _, _ => trivial

namespace Render

variable {bo : ByteOrder} {i : Input}

/-- The sets for the policies of a direction. -/
theorem emits_applyPolicies_sets {d : Direction} {direction : Str} :
    Emits (Event.AskedBy i) (fun _ => True)
      (applyPolicies bo i.deps d.entryChain i.sortedInfo direction (i.policiesIn d)) := by
  refine emits_when fun _ => emits_bind (emits_orLoop _ fun p hp => ?_) fun _ _ => ?_
  · have hpolicy : Emits (Event.AskedBy i) (fun _ => True)
        (applyPolicyRules bo i.deps (policyChainFullName d.entry p.policy)
          (policyChainOf d.entry p.policy) i.sortedInfo p.policyNetworks p.policy) :=
      fun es u hexec => ⟨fun e he =>
        ((emits_applyPolicyRules_sets es u hexec).1 e he).askedBy hp, trivial⟩
    refine emits_bind (R := fun _ => True) (emits_wrapErr ?_) fun _ _ =>
      emits_bind (emits_wrapErr (emits_updateRule_unit fun _ => trivial)) fun _ _ =>
        emits_pure trivial
    refine emits_bind (emits_wrapErr (emits_addChain trivial)) fun policyChain hchain => ?_
    obtain rfl : policyChain = policyChainOf d.entry p.policy := hchain
    refine emits_bind (emits_wrapErr (emits_orLoop _ fun _ _ => ?_)) fun _ _ =>
      emits_bind hpolicy fun _ _ => emits_pure trivial
    exact emits_updateRule fun _ => trivial
  · exact emits_wrapErr (emits_updateRule_unit fun _ => trivial)

/-- The interfaces of the pod are base sets. -/
theorem emits_bootstrapNetfilterRules_sets {interfaces : List InterfaceInfo} :
    Emits (Event.AskedBy i) (fun _ => True) (bootstrapNetfilterRules bo interfaces) := by
  have hchain : ∀ {context : Str} {c : Chain}, Emits (Event.AskedBy i) (fun x => x = c.short)
      (wrapErr context (addChain c)) := emits_wrapErr (emits_addChain trivial)
  have hset : ∀ {context table comment : Str}, Emits (Event.AskedBy i)
      (fun x => ∃ id, x = (interfaceSet table comment).short id)
      (wrapErr context (updateSet (interfaceSet table comment)
        (interfaceSetElements 0 interfaces))) := by
    intro context table comment
    have hname : shortName podInterfacesName ∈ baseSetNames := by decide
    exact emits_wrapErr (emits_updateSet fun _ _ => .inl hname)
  have hrule : ∀ {r : Rule} {action : RuleAction}, Emits (Event.AskedBy i) (fun _ => True)
      (updateRule r action false) := emits_updateRule fun _ => trivial
  refine emits_bind (R := fun _ => True) ?_ fun n _ => ?_
  · exact emits_bind hchain fun _ _ => emits_bind hchain fun _ _ => emits_bind hchain fun _ _ =>
      emits_bind hchain fun _ _ => emits_bind hchain fun _ _ => emits_bind hchain fun _ _ =>
        emits_bind hchain fun _ _ => emits_pure trivial
  · exact emits_bind hset fun _ _ => emits_bind (emits_wrapErr hrule) fun _ _ =>
      emits_bind (emits_wrapErr hrule) fun _ _ => emits_bind hset fun _ _ =>
        emits_bind hrule fun _ _ => emits_bind hrule fun _ _ => emits_bind hrule fun _ _ =>
          emits_pure trivial

/-- So are those of the common chains. -/
theorem emits_applyCommonChainRules_sets :
    Emits (Event.AskedBy i) (fun _ => True)
      (applyCommonChainRules (NftState.base bo) i.cfg) := by
  -- all sets of the common chains have fixed names
  have hndp : ∀ chain, Emits (Event.AskedBy i) (fun _ => True) (allowNeighborDiscovery chain) := by
    intro chain
    have hname : shortName ndpSet.name ∈ baseSetNames := by decide
    refine emits_bind (emits_wrapErr (emits_updateSet fun _ _ => .inl hname)) fun _ _ => ?_
    exact emits_bind (emits_wrapErr (emits_updateRule fun _ => trivial)) fun _ _ =>
      emits_pure trivial
  have hfamily : ∀ {chain : Chain} {set : NftSet} {els : List SetElement} {proto : UInt8}
      {offset len : Nat}, shortName set.name ∈ baseSetNames → Emits (Event.AskedBy i)
        (fun _ => True) (applyCommonPrefixFamily chain set els proto offset len) := by
    intro chain set els proto offset len hname
    exact emits_when fun _ => emits_bind (emits_wrapErr (emits_updateSet fun _ _ => .inl hname))
      fun _ _ => emits_updateRule_unit fun _ => trivial
  have hprefixes : ∀ (d : Direction) (prefixes : List Str), Emits (Event.AskedBy i) (fun _ => True)
      (applyCommonPrefixRules d.commonChain prefixes common) := by
    intro d prefixes
    refine emits_bind (emits_wrapErr (emits_ofExcept _)) fun _ _ => ?_
    exact emits_bind (hfamily (by cases d <;> decide)) fun _ _ =>
      hfamily (by cases d <;> decide)
  have hrule : ∀ chain icmpv6, Emits (Event.AskedBy i) (fun _ => True) (allowICMP chain icmpv6) :=
    fun _ _ => emits_updateRule_unit fun _ => trivial
  refine emits_bind (R := fun _ => True) ?_ fun _ _ => ?_
  · unfold applyCommonICMPv6
    split
    · exact emits_bind (emits_wrapErr (hrule _ _)) fun _ _ => emits_wrapErr (hrule _ _)
    · exact emits_bind (emits_wrapErr (hndp _)) fun _ _ => emits_wrapErr (hndp _)
  refine emits_bind (emits_when fun _ => emits_bind (emits_wrapErr (hrule _ _)) fun _ _ =>
    emits_wrapErr (hrule _ _)) fun _ _ => ?_
  refine emits_bind (emits_when fun _ => emits_wrapErr (hprefixes .ingress _)) fun _ _ => ?_
  refine emits_bind (emits_when fun _ => emits_wrapErr (hprefixes .egress _)) fun _ _ => ?_
  exact emits_bind (emits_wrapErr (emits_updateRule_unit fun _ => trivial)) fun _ _ =>
    emits_wrapErr (emits_updateRule_unit fun _ => trivial)

/-- **The sets of a rendering.** -/
theorem requestedSets_cases {es : List Event} {u : Unit} (h : Exec (renderInput bo i) es u) :
    ∀ e ∈ es, e.AskedBy i := by
  obtain ⟨es₁, es₂, es₃, es₄, rfl, h₁, h₂, h₃, h₄⟩ := exec_renderInput h
  intro e he
  simp only [List.mem_append] at he
  rcases he with he | he | he | he
  · exact (emits_bootstrapNetfilterRules_sets es₁ _ h₁).1 e he
  · exact (emits_applyCommonChainRules_sets es₂ _ h₂).1 e he
  · exact (emits_applyPolicies_sets (d := .ingress) es₃ _ h₃).1 e he
  · exact (emits_applyPolicies_sets (d := .egress) es₄ _ h₄).1 e he

/-! ### The sets of a selector peer -/

/-- The set of a selector peer, and how it is asked for.  Distinct names make sure that no other
policy and no other peer asks for it. -/
theorem addressGroup_of_name {es : List Event} {u : Unit} (h : Exec (renderInput bo i) es u)
    (hnames : SetsDistinct i.setUses) {d : Direction} {p : InternalPolicy}
    (hp : p ∈ i.policiesIn d) {x : PolicyRule × Nat} (hx : x ∈ (p.policy.rulesIn d).zipIdx)
    {y : MultiNetworkPolicyPeer × Nat} (hy : y ∈ x.1.peers.zipIdx) (hblock : y.1.ipBlock = none)
    {addrs : List Str} (haddrs : i.deps.addressesOf i.sortedInfo d p x.2 y = .ok addrs)
    {isV6 : Bool} {s : NftSet} {els : List SetElement} {fresh : Bool} (hs : .set s els fresh ∈ es)
    (hname : s.name =
      (⟨d, p.policy, .selector x.2 y.2 isV6 (selectorText y.1)⟩ : SetUse).name) :
    AddressGroup addrs isV6 els := by
  have hu : (⟨d, p.policy, .selector x.2 y.2 isV6 (selectorText y.1)⟩ : SetUse) ∈ i.setUses :=
    Input.mem_setUses.2 ⟨p, hp, rfl, x, hx,
      mem_ruleRoles_peer hy (mem_peerRoles_selector hblock _)⟩
  rcases requestedSets_cases h _ hs with hbase | ⟨d', q, hq, role, id, hset, hrole⟩
  · rw [hname] at hbase
    exact absurd hbase (hnames.base _ hu)
  obtain ⟨x', hx', hmem⟩ := hrole.exists_rule
  have hu' : (⟨d', q.policy, role⟩ : SetUse) ∈ i.setUses :=
    Input.mem_setUses.2 ⟨q, hq, rfl, x', hx', hmem⟩
  -- distinct names: the request is for this very peer
  have hkey : (⟨d', q.policy, role⟩ : SetUse).key =
      (⟨d, p.policy, .selector x.2 y.2 isV6 (selectorText y.1)⟩ : SetUse).key := by
    by_contra hne
    refine hnames.policies _ hu' _ hu hne ?_
    rw [← hname, hset]
    rfl
  simp only [SetUse.key, Prod.mk.injEq] at hkey
  obtain ⟨rfl, hpolicy, rfl⟩ := hkey
  obtain rfl := Input.eq_of_policy_name_eq hq hp hpolicy
  exact hrole.addressGroup hx hy haddrs

/-- The rules of a peer are part of those of its policy. -/
theorem includes_applyPolicyPeer {deps : PolicyDeps} {podInfo : PodInfo} {d : Direction}
    {direction : Str} {policies : List InternalPolicy} {p : InternalPolicy} (hp : p ∈ policies)
    {x : PolicyRule × Nat} (hx : x ∈ (p.policy.rulesIn d).zipIdx)
    {y : MultiNetworkPolicyPeer × Nat} (hy : y ∈ x.1.peers.zipIdx) :
    Includes (applyPolicyPeer bo deps (peersChainName (policyChainFullName d.entry p.policy) x.2)
        (peersChainOf (policyChainFullName d.entry p.policy) x.2) (policyNamespacedName p.policy)
        podInfo p.policyNetworks y.2 y.1)
      (applyPolicies bo deps d.entryChain podInfo direction policies) := by
  have hadd : ∀ {context : Str} {c : Chain}, Emits (fun _ => True) (fun x => x = c.short)
      (wrapErr context (addChain c)) := emits_wrapErr (emits_addChain trivial)
  refine includes_when (List.length_pos_of_mem hp) (includes_bind_left (includes_orLoop hp ?_))
  refine includes_bind_left
    (includes_wrapErr (includes_bind_right hadd fun policyChain hchain => ?_))
  obtain rfl : policyChain = policyChainOf d.entry p.policy := hchain
  refine includes_bind fun _ => includes_bind_left ?_
  -- the peers of one rule
  have hrule : ∀ {resetName direction : Str},
      Includes (applyPolicyPeer bo deps (peersChainName (policyChainFullName d.entry p.policy) x.2)
          (peersChainOf (policyChainFullName d.entry p.policy) x.2) (policyNamespacedName p.policy)
          podInfo p.policyNetworks y.2 y.1)
        (applyPolicyRule bo deps (policyChainFullName d.entry p.policy)
          (policyChainOf d.entry p.policy) podInfo p.policyNetworks (policyNamespacedName p.policy)
          resetName direction x.2 x.1) := by
    intro resetName direction
    refine includes_bind fun _ => includes_bind fun _ => includes_bind_left (includes_wrapErr ?_)
    refine includes_bind_right hadd fun peersChain hpeers => includes_bind fun _ => ?_
    rw [hpeers]
    exact includes_bind_left (includes_forEach hy includes_refl)
  change Includes _ (applyPolicyRules bo deps (policyChainFullName d.entry p.policy) _ _ _ _)
  unfold applyPolicyRules
  rw [isIngressChain_policyChainFullName]
  cases d with
  | ingress => exact includes_forEach hx hrule
  | egress => exact includes_forEach hx hrule

/-- The name under which `addIPRule` asks for the set. -/
theorem selectorSetOf_name (d : Direction) (p : MultiNetworkPolicy) (index : Nat)
    (y : MultiNetworkPolicyPeer × Nat) (isV6 : Bool) (id : Nat) :
    (selectorSetOf (peersChainOf (policyChainFullName d.entry p) index).table
        (peersChainName (policyChainFullName d.entry p) index) y.1 y.2 isV6 id).name =
      (⟨d, p, .selector index y.2 isV6 (selectorText y.1)⟩ : SetUse).name := by
  simp only [selectorSetOf, NftSet.short, SetUse.name, SetUse.set, SetUse.chainName, selectorSet]

/-- A rendering that succeeds collects the addresses of every selector peer and asks for their
sets. -/
theorem exists_addressCalls {es : List Event} {u : Unit} (h : Exec (renderInput bo i) es u)
    {d : Direction} {p : InternalPolicy} (hp : p ∈ i.policiesIn d) {x : PolicyRule × Nat}
    (hx : x ∈ (p.policy.rulesIn d).zipIdx) {y : MultiNetworkPolicyPeer × Nat}
    (hy : y ∈ x.1.peers.zipIdx) (hblock : y.1.ipBlock = none) :
    ∃ addrs, i.deps.addressesOf i.sortedInfo d p x.2 y = .ok addrs ∧
      (∀ a ∈ addrs, (NetIP.parseAddr a).isSome = true) ∧
      ∀ f : Str → Bool, (f = isIPv4Text ∨ f = fun a => !isIPv4Text a) → ∃ es' ⊆ es,
        AddressCalls bo (peersChainName (policyChainFullName d.entry p.policy) x.2)
          (peersChainOf (policyChainFullName d.entry p.policy) x.2) (policyNamespacedName p.policy)
          y.1 y.2 (addrs.filter f) es' := by
  obtain ⟨es₁, es₂, es₃, es₄, rfl, -, -, h₃, h₄⟩ := exec_renderInput h
  obtain ⟨es', v, hexec, hsub⟩ : ∃ es' v, Exec (applyPolicyPeer bo i.deps
      (peersChainName (policyChainFullName d.entry p.policy) x.2)
      (peersChainOf (policyChainFullName d.entry p.policy) x.2) (policyNamespacedName p.policy)
      i.sortedInfo p.policyNetworks y.2 y.1) es' v ∧ es' ⊆ es₁ ++ (es₂ ++ (es₃ ++ es₄)) := by
    cases d with
    | ingress =>
      obtain ⟨es', v, hexec, hsub⟩ :=
        includes_applyPolicyPeer (d := .ingress) hp hx hy es₃ _ h₃
      exact ⟨es', v, hexec, fun e he => by simp [hsub he]⟩
    | egress =>
      obtain ⟨es', v, hexec, hsub⟩ := includes_applyPolicyPeer (d := .egress) hp hx hy es₄ _ h₄
      exact ⟨es', v, hexec, fun e he => by simp [hsub he]⟩
  unfold applyPolicyPeer at hexec
  rw [hblock] at hexec
  simp only at hexec
  -- a peer without block and selectors is refused
  split at hexec
  · rw [applyPolicyPeersRulesSelector_eq] at hexec
    obtain ⟨addrs, _, es'', hcollect, hcalls, rfl⟩ := exec_bind.1 (exec_wrapErr.1 hexec)
    obtain ⟨haddrs, rfl⟩ := exec_ofExcept.1 hcollect
    obtain ⟨hparsed, es₄', es₆', rfl, h₄', h₆'⟩ := exec_addIPRules (exec_wrapErr.1 hcalls)
    refine ⟨addrs, haddrs, hparsed, fun f hf => ?_⟩
    rcases hf with rfl | rfl
    · exact ⟨es₄', fun e he => hsub (by simp [he]), h₄'⟩
    · exact ⟨es₆', fun e he => hsub (by simp [he]), h₆'⟩
  · cases hexec

end Render

end MultiNetPolicy
