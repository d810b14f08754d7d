import MultiNetPolicy.Equiv.Chains

/-!
# The calls of a whole run, chain by chain

* `callsIn_entry`: the calls for an entry chain: the jump to the common chain, the interface rules
  and the check of each policy, the final drop.
* `callsIn_policyChain`: the calls for a policy chain: one block for each rule, when chain names are
  distinct.
* `calls_renderInput`: every other call is for a ports, peers, base or common chain.
-/

namespace MultiNetPolicy

open ByteString

namespace Render

variable {bo : ByteOrder}

/-! ### The common chains -/

section Common

variable {chain : Chain} (ht : chain.table = filterTableName)
include ht

theorem emits_allowICMP {icmpv6 : Bool} :
    Emits (Event.Calls fun r => r.InFilter chain.name ∧ AcceptRule r) (fun _ => True)
      (allowICMP chain icmpv6) := by
  refine emits_updateRule_unit fun _ => ⟨⟨ht, rfl⟩, ?_⟩
  exact ⟨protocolIs .l4proto (if icmpv6 then ipprotoICMPv6 else ipprotoICMP) ++ [.counter],
    rfl, rfl⟩

theorem emits_allowNeighborDiscovery :
    Emits (Event.Calls fun r => r.InFilter chain.name ∧ AcceptRule r) (fun _ => True)
      (allowNeighborDiscovery chain) := by
  refine emits_bind (emits_wrapErr (emits_updateSet fun _ _ => trivial)) fun set _ => ?_
  refine emits_bind (emits_wrapErr (emits_updateRule fun _ => ⟨⟨ht, rfl⟩, ?_⟩)) fun _ _ =>
    emits_pure trivial
  exact ⟨protocolIs .nfproto nfprotoIPv6 ++ protocolIs .l4proto ipprotoICMPv6 ++
    [.payload 1 .transportHeader 0 1, .lookup 1 set.name set.id, .counter], rfl, rfl⟩

theorem emits_applyCommonPrefixFamily {set : NftSet} {els : List SetElement} {proto : UInt8}
    {offset len : Nat} :
    Emits (Event.Calls fun r => r.InFilter chain.name ∧ AcceptRule r) (fun _ => True)
      (applyCommonPrefixFamily chain set els proto offset len) := by
  refine emits_when fun _ => emits_bind (emits_wrapErr (emits_updateSet fun _ _ => trivial))
    fun set _ => emits_updateRule_unit fun _ => ⟨⟨ht, rfl⟩, ?_⟩
  exact ⟨addressIn proto offset len set ++ [.counter], rfl, rfl⟩

theorem emits_applyCommonPrefixRules {prefixes : List Str} {name : Str} :
    Emits (Event.Calls fun r => r.InFilter chain.name ∧ AcceptRule r) (fun _ => True)
      (applyCommonPrefixRules chain prefixes name) :=
  emits_bind (emits_wrapErr (emits_ofExcept _)) fun _ _ =>
    emits_bind (emits_applyCommonPrefixFamily ht) fun _ _ => emits_applyCommonPrefixFamily ht

theorem emits_allowConntracked :
    Emits (Event.Calls fun r => r.InFilter chain.name ∧ AcceptRule r) (fun _ => True)
      (allowConntracked bo chain) := by
  refine emits_updateRule_unit fun _ => ⟨⟨ht, rfl⟩, ?_⟩
  exact ⟨[.ct 1 false .state, .bitwise 1 1 4 (bo.putUint32 ctStateTracked)
    (bo.putUint32 zeroRuleMark), .cmp .neq 1 [0, 0, 0, 0], .counter], rfl, rfl⟩

end Common

/-- The rules of the common chains accept. -/
theorem emits_applyCommonChainRules {cfg : CommonRuleConfig} :
    Emits (Event.Calls fun r => ∃ d : Direction, r.InFilter d.commonChain.name ∧ AcceptRule r)
      (fun _ => True) (applyCommonChainRules (NftState.base bo) cfg) := by
  have hin : ∀ {α : Type} {R : α → Prop} {d : Direction} {p : Render α},
      Emits (Event.Calls fun r => r.InFilter d.commonChain.name ∧ AcceptRule r) R p →
      Emits (Event.Calls fun r => ∃ d : Direction, r.InFilter d.commonChain.name ∧ AcceptRule r)
        R p := fun {_ _ d _} h es a hex =>
    ⟨fun e he => ((h es a hex).1 e he).mono fun _ hr => ⟨d, hr⟩, (h es a hex).2⟩
  have hboth : ∀ {f : Chain → Render Unit} {what₁ what₂ : Str},
      (∀ chain : Chain, chain.table = filterTableName →
        Emits (Event.Calls fun r => r.InFilter chain.name ∧ AcceptRule r) (fun _ => True)
          (f chain)) →
      Emits (Event.Calls fun r => ∃ d : Direction, r.InFilter d.commonChain.name ∧ AcceptRule r)
        (fun _ => True) (do
          wrapErr what₁ (f Direction.ingress.commonChain)
          wrapErr what₂ (f Direction.egress.commonChain)) := fun h =>
    emits_bind (emits_wrapErr (hin (h _ rfl))) fun _ _ => emits_wrapErr (hin (h _ rfl))
  refine emits_bind (R := fun _ => True) ?_ fun _ _ => ?_
  · unfold applyCommonICMPv6
    split
    · exact hboth fun _ ht => emits_allowICMP ht
    · exact hboth fun _ ht => emits_allowNeighborDiscovery ht
  · refine emits_bind (emits_when fun _ => hboth fun _ ht => emits_allowICMP ht) fun _ _ => ?_
    refine emits_bind (emits_when fun _ => emits_wrapErr
      (hin (d := .ingress) (emits_applyCommonPrefixRules rfl))) fun _ _ => ?_
    refine emits_bind (emits_when fun _ => emits_wrapErr
      (hin (d := .egress) (emits_applyCommonPrefixRules rfl))) fun _ _ => ?_
    exact hboth fun _ ht => emits_allowConntracked ht

end Render

/-! ### The calls of a run -/

/-- A rule that a run asks for. -/
inductive RunCall (bo : ByteOrder) (i : Input) (r : Rule) : Prop where
  | hook (hr : r.chain ∈ [str "input", str "output", str "prerouting"]) (hshape : FlowRule bo r)
  | entry (d : Direction) (hr : r.InFilter d.entry) (hshape : FlowRule bo r)
  | common (d : Direction) (hr : r.InFilter d.commonChain.name) (hshape : AcceptRule r)
  | policy (d : Direction) (p : InternalPolicy) (hp : p ∈ i.policiesIn d)
      (hr : PolicyCall bo d p.policy r)

theorem hook_mem_base :
    ∀ c ∈ [str "input", str "output", str "prerouting"], c ∈ baseChainNames := by
  decide

/-- The common chains are base chains. -/
theorem Direction.common_mem_base : ∀ d : Direction, d.commonChain.name ∈ baseChainNames := by
  decide

/-- A rule outside the chains that every run has is a rule of a policy. -/
theorem RunCall.exists_policy {bo : ByteOrder} {i : Input} {r : Rule} (h : RunCall bo i r)
    (hr : r.chain ∉ baseChainNames) :
    ∃ d, ∃ p ∈ i.policiesIn d, PolicyCall bo d p.policy r := by
  cases h with
  | hook hhook _ => exact absurd (hook_mem_base _ hhook) hr
  | entry d hin _ =>
    rw [hin.2] at hr
    exact absurd d.entry_mem_base hr
  | common d hin _ =>
    rw [hin.2] at hr
    exact absurd d.common_mem_base hr
  | policy d p hp hcall => exact ⟨d, p, hp, hcall⟩

/-- The names of the chains of all policies of a run. -/
def Input.chainNames (i : Input) : List Str :=
  [Direction.ingress, .egress].flatMap fun d =>
    (i.policiesIn d).flatMap fun p => policyChainNames d p.policy

theorem Direction.forall_mem (d : Direction) : d ∈ [Direction.ingress, .egress] := by
  cases d <;> decide

/-- A chain of one policy is of no other one. -/
theorem Input.others_of_nodup {i : Input} (h : i.chainNames.Nodup) {d : Direction}
    {p : InternalPolicy} (hp : p ∈ i.policiesIn d) {c : Str}
    (hc : c ∈ policyChainNames d p.policy) :
    (∃ l₁ l₂, i.policiesIn d = l₁ ++ p :: l₂ ∧
      ∀ q ∈ l₁ ++ l₂, c ∉ policyChainNames d q.policy) ∧
    ∀ d', d' ≠ d → ∀ q ∈ i.policiesIn d', c ∉ policyChainNames d' q.policy := by
  unfold Input.chainNames at h
  rw [List.nodup_flatMap] at h
  obtain ⟨hin, hbetween⟩ := h
  constructor
  · obtain ⟨l₁, l₂, hl⟩ := List.append_of_mem hp
    refine ⟨l₁, l₂, hl, fun q hq hcq => ?_⟩
    have hd := hin d d.forall_mem
    rw [hl] at hd
    -- the policy in front, so that its names are apart from those of the others
    have hd' := (List.perm_middle.flatMap_right fun p : InternalPolicy =>
      policyChainNames d p.policy).nodup_iff.1 hd
    rw [List.flatMap_cons, List.nodup_append] at hd'
    exact hd'.2.2 c hc c (List.mem_flatMap.2 ⟨q, hq, hcq⟩) rfl
  · intro d' hd' q hq hcq
    rw [List.pairwise_pair] at hbetween
    have hmem : c ∈ (i.policiesIn d).flatMap fun p => policyChainNames d p.policy :=
      List.mem_flatMap.2 ⟨p, hp, hc⟩
    have hmem' : c ∈ (i.policiesIn d').flatMap fun p => policyChainNames d' p.policy :=
      List.mem_flatMap.2 ⟨q, hq, hcq⟩
    cases d with
    | ingress =>
      cases d' with
      | ingress => exact hd' rfl
      | egress => exact hbetween hmem hmem'
    | egress =>
      cases d' with
      | ingress => exact hbetween hmem' hmem
      | egress => exact hd' rfl

/-- Chains of one policy have names of their own. -/
theorem Input.role_eq_of_nodup {i : Input} (h : i.chainNames.Nodup) {d : Direction}
    {p : InternalPolicy} (hp : p ∈ i.policiesIn d) {role role' : ChainRole}
    (hr : role ∈ rolesBelow (p.policy.rulesIn d).length)
    (hr' : role' ∈ rolesBelow (p.policy.rulesIn d).length)
    (heq : chainNameOf d p.policy role = chainNameOf d p.policy role') : role = role' := by
  unfold Input.chainNames at h
  rw [List.nodup_flatMap] at h
  have hd := h.1 d d.forall_mem
  rw [List.nodup_flatMap] at hd
  exact List.inj_on_of_nodup_map (hd.1 p hp) hr hr' heq

namespace Render

variable {bo : ByteOrder} {i : Input} {es : List Event} {ans : Rule → Bool} {u : Unit}

/-- The calls before the policies: hooks, the jumps to the common chains, the common chains. -/
theorem calls_bootstrap {es₁ : List Event} (hans : Answers ans es₁)
    (h : Exec (bootstrapNetfilterRules bo i.sortedInfo.interfaces) es₁ (NftState.base bo)) :
    (∀ e ∈ es₁, e.Calls fun r => (r.chain ∈ [str "input", str "output", str "prerouting"] ∧
      FlowRule bo r) ∨ ∃ d, r = commonRule d) ∧
    ∀ d : Direction, callsIn filterTableName d.entry es₁ =
      [.rule (commonRule d) .insertRule false (ans (commonRule d))] := by
  obtain ⟨-, filterSet, natSet, fresh₁, fresh₂, b₁, b₂, b₃, b₄, b₅, -, -, rfl⟩ :=
    exec_bootstrapNetfilterRules h
  -- the last two calls are the jumps to the common chains
  have h₄ := hans (commonRule .ingress) .insertRule false b₄ (List.mem_append_right _
    (.tail _ (.tail _ (.tail _ (.tail _ (.tail _ (.head _)))))))
  have h₅ := hans (commonRule .egress) .insertRule false b₅ (List.mem_append_right _
    (.tail _ (.tail _ (.tail _ (.tail _ (.tail _ (.tail _ (.head _))))))))
  constructor
  · intro e he
    rcases List.mem_append.1 he with he | he
    · obtain ⟨c, -, rfl⟩ := List.mem_map.1 he
      trivial
    · simp only [List.mem_cons, List.not_mem_nil, or_false] at he
      rcases he with rfl | rfl | rfl | rfl | rfl | rfl | rfl
      · trivial
      · exact .inl ⟨.head _,
          .verdict ⟨interfaceIn .iifname filterSet ++ [.counter], _, _, rfl, rfl⟩⟩
      · exact .inl ⟨.tail _ (.head _),
          .verdict ⟨interfaceIn .oifname filterSet ++ [.counter], _, _, rfl, rfl⟩⟩
      · trivial
      · exact .inl ⟨.tail _ (.tail _ (.head _)),
          .verdict ⟨interfaceIn .iifname natSet ++ [.counter], _, _, rfl, rfl⟩⟩
      · exact .inr ⟨.ingress, rfl⟩
      · exact .inr ⟨.egress, rfl⟩
  · intro d
    have hnone : callsIn filterTableName d.entry (NftState.baseChains.map Event.chain) = [] :=
      callsIn_eq_nil fun e he => by
        obtain ⟨c, -, rfl⟩ := List.mem_map.1 he
        rfl
    rw [callsIn_append, hnone, List.nil_append, h₄, h₅]
    cases d <;> rfl

/-- **Every call of a run.** -/
theorem calls_renderInput (h : Exec (renderInput bo i) es u) (hans : Answers ans es) :
    ∀ e ∈ es, e.Calls (RunCall bo i) := by
  obtain ⟨es₁, es₂, es₃, es₄, rfl, h₁, h₂, h₃, h₄⟩ := exec_renderInput h
  simp only [Answers.append_iff] at hans
  obtain ⟨hans₁, -, hans₃, hans₄⟩ := hans
  intro e he
  simp only [List.mem_append] at he
  rcases he with he | he | he | he
  · refine ((calls_bootstrap hans₁ h₁).1 e he).mono fun r hr => ?_
    rcases hr with hr | ⟨d, rfl⟩
    · exact .hook hr.1 hr.2
    · refine .entry d (by cases d <;> exact ⟨rfl, rfl⟩)
        (.verdict ⟨[.counter], .jump, d.commonChain.name, rfl, ?_⟩)
      cases d <;> rfl
  · exact (calls_of_emits h₂ emits_applyCommonChainRules e he).mono fun r ⟨d, hr, hshape⟩ =>
      .common d hr hshape
  · refine (calls_applyPolicies (d := .ingress) h₃ hans₃ e he).mono fun r hr => ?_
    rcases hr with hr | ⟨p, hp, hr⟩
    · exact .entry .ingress hr.1 hr.2
    · exact .policy .ingress p hp hr
  · refine (calls_applyPolicies (d := .egress) h₄ hans₄ e he).mono fun r hr => ?_
    rcases hr with hr | ⟨p, hp, hr⟩
    · exact .entry .egress hr.1 hr.2
    · exact .policy .egress p hp hr

/-- **The calls for an entry chain.** -/
theorem callsIn_entry (h : Exec (renderInput bo i) es u) (hans : Answers ans es) (d : Direction) :
    callsIn filterTableName d.entry es =
      .rule (commonRule d) .insertRule false (ans (commonRule d)) ::
        (appendCalls ans (midRules bo d i.sortedInfo (i.policiesIn d)) ++
          dropCalls ans d i.sortedInfo (i.policiesIn d)) := by
  obtain ⟨es₁, es₂, es₃, es₄, rfl, h₁, h₂, h₃, h₄⟩ := exec_renderInput h
  simp only [Answers.append_iff] at hans
  obtain ⟨hans₁, -, hans₃, hans₄⟩ := hans
  have hcommon : callsIn filterTableName d.entry es₂ = [] :=
    callsIn_eq_nil_of_calls (calls_of_emits h₂ emits_applyCommonChainRules) fun r ⟨d', hr, _⟩ =>
      ⟨_, hr, by cases d <;> cases d' <;> decide⟩
  -- the other direction
  have hother : ∀ {d' : Direction}, d' ≠ d → ∀ {direction : Str} {es' : List Event},
      Exec (applyPolicies bo i.deps d'.entryChain i.sortedInfo direction (i.policiesIn d')) es' () →
      Answers ans es' → callsIn filterTableName d.entry es' = [] := by
    intro d' hd' direction es' h' hans'
    refine callsIn_eq_nil_of_calls (calls_applyPolicies h' hans') fun r hr => ?_
    rcases hr with hr | ⟨p, -, hr⟩
    · refine ⟨_, hr.1, ?_⟩
      revert hd'
      cases d <;> cases d' <;> decide
    · obtain ⟨c, hc, hr⟩ := hr.mem_names
      exact ⟨c, hr, ne_base_of_mem hc d.entry_mem_base⟩
  rw [callsIn_append, callsIn_append, callsIn_append, (calls_bootstrap hans₁ h₁).2, hcommon]
  cases d with
  | ingress =>
    rw [hother (by decide : Direction.egress ≠ .ingress) h₄ hans₄, List.append_nil]
    exact congrArg _ (callsIn_applyPolicies (d := .ingress) h₃ hans₃)
  | egress =>
    rw [hother (by decide : Direction.ingress ≠ .egress) h₃ hans₃]
    exact congrArg _ (callsIn_applyPolicies (d := .egress) h₄ hans₄)

/-- The calls for a chain of a policy are calls of that policy. -/
theorem exists_callsIn_policy (h : Exec (renderInput bo i) es u) (hans : Answers ans es)
    (hnd : i.chainNames.Nodup) {d : Direction} {p : InternalPolicy} (hp : p ∈ i.policiesIn d)
    {c : Str} (hc : c ∈ policyChainNames d p.policy) :
    ∃ e esR, PolicyCalls bo i.deps d i.sortedInfo ans p e esR ∧ e ⊆ es ∧
      callsIn filterTableName c es = callsIn filterTableName c esR := by
  obtain ⟨es₁, es₂, es₃, es₄, rfl, h₁, h₂, h₃, h₄⟩ := exec_renderInput h
  simp only [Answers.append_iff] at hans
  obtain ⟨hans₁, -, hans₃, hans₄⟩ := hans
  obtain ⟨⟨l₁, l₂, hl, hothers⟩, hother⟩ := Input.others_of_nodup hnd hp hc
  -- no chain of a policy is a base chain, an entry chain or a common chain
  have hbase : ∀ c' ∈ baseChainNames, c' ≠ c := fun c' hc' => (ne_base_of_mem hc hc').symm
  have hboot : callsIn filterTableName c es₁ = [] := by
    refine callsIn_eq_nil fun e he => ((calls_bootstrap hans₁ h₁).1 e he).inChain_eq_false ?_
    intro r hr
    rw [Bool.eq_false_iff]
    intro hin
    obtain ⟨-, hrc⟩ := Rule.inChain_iff.1 hin
    refine hbase r.chain ?_ hrc
    rcases hr with hr | ⟨d', rfl⟩
    · exact hook_mem_base _ hr.1
    · cases d' <;> decide
  have hcommon : callsIn filterTableName c es₂ = [] :=
    callsIn_eq_nil_of_calls (calls_of_emits h₂ emits_applyCommonChainRules) fun r ⟨d', hr, _⟩ =>
      ⟨_, hr, hbase _ (by cases d' <;> decide)⟩
  -- the other direction has other chains
  have hpolicies : ∀ {d' : Direction}, d' ≠ d → ∀ {direction : Str} {es' : List Event},
      Exec (applyPolicies bo i.deps d'.entryChain i.sortedInfo direction (i.policiesIn d')) es' () →
      Answers ans es' → callsIn filterTableName c es' = [] := by
    intro d' hd' direction es' h' hans'
    refine callsIn_eq_nil_of_calls (calls_applyPolicies h' hans') fun r hr => ?_
    rcases hr with hr | ⟨q, hq, hr⟩
    · exact ⟨_, hr.1, hbase _ d'.entry_mem_base⟩
    · obtain ⟨c', hc', hr⟩ := hr.mem_names
      refine ⟨c', hr, ?_⟩
      rintro rfl
      exact hother d' hd' q hq hc'
  have hentry := hbase _ d.entry_mem_base
  simp only [callsIn_append, hboot, hcommon, List.nil_append]
  cases d with
  | ingress =>
    rw [hpolicies (by decide : Direction.egress ≠ .ingress) h₄ hans₄, List.append_nil]
    obtain ⟨e, esR, hcalls, hsub, heq⟩ := exists_callsIn_applyPolicies h₃ hans₃ hl hentry hothers
    exact ⟨e, esR, hcalls, fun x hx => by simp [hsub hx], heq⟩
  | egress =>
    rw [hpolicies (by decide : Direction.ingress ≠ .egress) h₃ hans₃, List.nil_append]
    obtain ⟨e, esR, hcalls, hsub, heq⟩ := exists_callsIn_applyPolicies h₄ hans₄ hl hentry hothers
    exact ⟨e, esR, hcalls, fun x hx => by simp [hsub hx], heq⟩

/-- **The calls for a policy chain.** -/
theorem callsIn_policyChain (h : Exec (renderInput bo i) es u) (hans : Answers ans es)
    (hnd : i.chainNames.Nodup) {d : Direction} {p : InternalPolicy} (hp : p ∈ i.policiesIn d) :
    callsIn filterTableName (chainNameOf d p.policy .policy) es =
      appendCalls ans (policyRules bo d p.policy) := by
  have hpolicy : ChainRole.policy ∈ rolesBelow (p.policy.rulesIn d).length :=
    mem_rolesBelow.2 trivial
  obtain ⟨e, esR, hcalls, -, heq⟩ :=
    exists_callsIn_policy h hans hnd hp (List.mem_map_of_mem hpolicy)
  rw [heq]
  refine callsIn_applyPolicyRules hcalls.exec hcalls.answers (fun j hj hname => ?_)
    fun j hj hname => ?_
  · cases Input.role_eq_of_nodup hnd hp (mem_rolesBelow.2 hj) hpolicy hname
  · cases Input.role_eq_of_nodup hnd hp (mem_rolesBelow.2 hj) hpolicy hname

end Render

end MultiNetPolicy
